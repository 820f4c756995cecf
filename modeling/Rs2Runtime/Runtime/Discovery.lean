import Rs2Runtime.Guest.Sockets
import Rs2Runtime.Router.Mounts
import Rs2Runtime.Services.PipelineService
import Rs2Runtime.Wrapper.Scope

/-!
Contract: the generated discovery documents of a tenant.

Owns:
- which mounts a caller sees, and on which surface;
- the entries of mounts in the catalogue and in the agent surface;
- when every mount that is seen could be read, and what else the documents depend on.

Does not own: the texts of the OpenAPI document, the limits a node advertises, or what is read from
the stores of a mount; they are parameters.

## Where the filter and the check part

The filter takes a mount without a policy for readable, which the check denies to everyone.  And it
probes with the whole base path where a routed request has only the path within the mount, so a
path-scoped grant that happens to cover the base path shows the mount.
-/

namespace Rs2Runtime.Runtime.Discovery

open Text Data Json Wrapper Router
open Guest

/-! ## The filter -/

/-- The request a mount is probed with. -/
def probe (msg : Message) (mount : Mount) : Message :=
  { Message.request .get mount.basePath msg.tenant msg.traceId with
    principal := msg.principal
    source := msg.source }

/-- Whether discovery shows a mount to a caller. -/
def isReadable (msg : Message) (mount : Mount) : Bool :=
  match mount.config.get? "access" with
  | none => true
  | some access => (checkRoleSpec access .read (probe msg mount)).isOk

/-- Mounts the caller may read. -/
def readableMounts (mounts : MountTable) (msg : Message) : List Mount :=
  mounts.mounts.filter (isReadable msg)

/-- Whether a mount appears on a surface. -/
def exposedOn (mount : Mount) (surface : Option Str) : Bool :=
  match surface with
  | none => true
  | some surface =>
    match mount.config.get? "x-expose" with
    | none => true
    | some (.str name) => name = surface
    | some (.arr items) => items.any fun item => item.asStr = some surface
    | some _ => false

/-! ## Entries -/

/-- What the documents read of the stores and the adapters of a mount. -/
structure Instances where
  /-- Whether listings of a data mount push down to its engine; none without a data store. -/
  listingPushdown : Mount → Option Bool
  /-- The stored specifications below a prefix. -/
  storedSpecs : Mount → (kindPrefix : Str) → List (Str × Value)
  /-- The deployment manifest of a code mount. -/
  codeManifest : Mount → Option Value
  /-- The paths and the schemas of a mount in the OpenAPI document. -/
  openapiItems : Mount → List (Str × Value) × List (Str × Value)

/-- What the documents have of the node. -/
structure Node where
  codec : Codec
  limits : Value
  pathItems : Value
  responses : Value
  problemSchema : Value

def querySubtree : Str := ".queries"

def templateSubtree : Str := ".templates"

def pipelinePrefix_ : Str := ".rs2-pipelines"

def queryPrefix_ : Str := ".rs2-queries"

/-- The specification that governs the mount root. -/
def rootSpec : Str := ".root"

/-- The path of a mount as documents write it. -/
def shownPath (mount : Mount) : Str :=
  if mount.basePath = [] then "/" else mount.basePath

/-- The reserved authoring subtree of a mount with stored specifications. -/
def specSubtreeOf (mount : Mount) : Option Str :=
  if mount.service = "query" then some querySubtree
  else if mount.service = "pipeline" then some Services.PipelineService.pipelineSubtree
  else if mount.service = "template" then some templateSubtree
  else none

/-- How the specifications of a mount are authored, beyond plain JSON. -/
def authoringOf (mount : Mount) : Option Value :=
  if mount.service = "pipeline" then
    some (.object [
      ("kind", .str "pipeline-dsl"),
      ("compiledField", .str "pipeline"),
      ("sourceField", .str "x-source")])
  else if mount.service = "template" then
    some (.object [
      ("kind", .str "jsx"),
      ("framework", .str "preact"),
      ("compiledField", .str "source"),
      ("sourceField", .str "jsxSource"),
      ("render", .str "html")])
  else
    none

/-- The keys of a configuration that documents copy. -/
def metaKeys : List Str :=
  ["x-agent", "x-policy", "x-expose", "x-render", "x-context", "description", "inputSchema",
    "outputSchema"]

/-- Put a member in if there is a value for it. -/
def put (entry : Object) (key : Str) : Option Value → Object
  | some value => entry.insert key value
  | none => entry

/-- The metadata of a mount. -/
def meta_ (mount : Mount) : Object :=
  let copied := metaKeys.foldl (fun out key => put out key (mount.config.get? key)) []
  let adapter := ((mount.config.get? "store").bind fun store => store.get? "adapter").filter
    fun adapter => adapter.asStr.isSome
  let out := put copied "adapter" adapter
  let out := put out "specSubtree" ((specSubtreeOf mount).map Value.str)
  put out "authoring" (authoringOf mount)

/-- The facets of a file mount that serves a site. -/
def fileFacets (mount : Mount) : List Str :=
  [("range" : Str), "confirm-delete", "move", "meta-sort"] ++
    if (mount.config.get? "defaultResource").isSome || (mount.config.get? "spaFallback").isSome ||
        (mount.config.get? "spaFallbackAll").isSome then
      [("static-site" : Str)]
    else
      []

/-- The pattern and the facets of every service but the wrapper. -/
def servicePattern (mount : Mount) : Str × List Str :=
  if mount.service = "file" then ("store", fileFacets mount)
  else if mount.service = "data" then
    ("store", ["schema", "patch", "echo", "confirm-delete", "list-projection"])
  else if mount.service = "pipeline" then ("store-transform", ["any-verb", "meta-sort"])
  else if mount.service = "query" then
    ("store-view", ["positional-params", "url-params", "any-verb", "meta-sort"])
  else if mount.service = "template" then
    ("store-view", ["positional-params", "url-params", "json-props", "any-verb", "meta-sort"])
  else if mount.service = "log" then ("view", ["url-params", "time-range", "trace-scoped"])
  else if mount.service = "message" then ("api", ["channels"])
  else if mount.service = "mcp" then ("api", ["mcp"])
  else if mount.service = "apikeys" then ("api", ["apikeys"])
  else ("api", [])

def websocketFacet (codec : Codec) (mount : Mount) : List Str :=
  if (webSocketConfigOf codec mount.config mount.service).isSome then ["websocket"] else []

/-- The conversation shape of a mount with its optional capabilities. -/
def patternOf (codec : Codec) (mount : Mount) : Str × List Str :=
  if mount.service = "wrapper" then
    let pattern := ((mount.config.get? "pattern").bind Value.asStr).getD "store-transform"
    let facets := ((mount.config.get? "facets").bind Value.asArray).getD [] |>.filterMap Value.asStr
    (pattern, facets ++ websocketFacet codec mount)
  else
    let shape := servicePattern mount
    let conditional : List Str :=
      if ("store" : Str).isPrefixOf shape.1 then ["conditional-write"] else []
    (shape.1, shape.2 ++ conditional ++ websocketFacet codec mount)

def withPattern (codec : Codec) (entry : Object) (mount : Mount) : Object :=
  let shape := patternOf codec mount
  let entry := entry.insert "pattern" (.str shape.1)
  if shape.2.isEmpty then entry else entry.insert "facets" (.arr (shape.2.map Value.str))

/-- Members that replace those of an entry. -/
def extended (entry : Value) (members : Object) : Object :=
  OrderedMap.extend (entry.asObject.getD []) members

/-! ## The catalogue -/

variable (node : Node) (instances : Instances)

def serviceEntry (mount : Mount) : Value :=
  let entry := extended
    (.object [("path", .str (shownPath mount)), ("service", .str mount.service)]) (meta_ mount)
  let entry := withPattern node.codec entry mount
  .obj (if mount.service = "data" then
    put entry "listProjection" ((instances.listingPushdown mount).map fun native =>
      .str (if native then "native" else "fallback"))
  else
    entry)

/-- Where the control surface of a mount lies. -/
def controlEntry (mount : Mount) : Value :=
  let below := fun (path : Str) => Value.str (mount.basePath ++ path)
  .object [
    ("path", .str (shownPath mount)),
    ("config", below "/raw"),
    ("catalogue", below "/catalogue"),
    ("catalogues", below "/catalogues"),
    ("available", below "/catalogue/available"),
    ("install", below "/catalogue/install"),
    ("mounts", below "/services"),
    ("code", below "/code/")]

def servicesDoc (readable : List Mount) (surface : Option Str) (tenant : Str) : Value :=
  let shown := readable.filter fun mount => exposedOn mount surface
  .object [
    ("tenant", .str tenant),
    ("services", .arr (shown.map (serviceEntry node instances))),
    ("control",
      ((shown.find? fun mount => mount.service = ("services" : Str)).map controlEntry).getD .null),
    ("limits", node.limits)]

/-! ## The agent surface -/

/-- What a mount adds to the agent surface. -/
structure Surface where
  entities : List Value
  actions : List Value
  queries : List Value

def idempotency : Value :=
  .object [("header", .str "Idempotency-Key"), ("honored", .bool true)]

def dataEntity (mount : Mount) : Value :=
  let base := shownPath mount
  .obj (withPattern node.codec (extended
    (.object [
      ("path", .str base),
      ("kind", .str "entity"),
      ("schemaUrlPattern", .str (base ++ ("/\x7bdataset\x7d/.schema.json" : Str))),
      ("idempotency", idempotency)]) (meta_ mount)) mount)

/-- The entry of a stored pipeline; its own metadata wins over that of the mount. -/
def pipelineAction (mount : Mount) (spec : Str × Value) : Value :=
  let base := shownPath mount
  let path := if spec.1 = rootSpec then base else base ++ '/' :: spec.1
  let entry := extended
    (.object [
      ("path", .str path),
      ("kind", .str "action"),
      ("effect", (spec.2.get? "effect").getD (.str "unsafe")),
      ("plan", .str (base ++ '/' :: Services.PipelineService.pipelineSubtree ++ '/' :: spec.1 ++
        ("?$plan" : Str))),
      ("idempotency", idempotency)]) (meta_ mount)
  let entry := ([("x-agent" : Str), "x-policy", "description"]).foldl
    (fun entry key => put entry key (spec.2.get? key)) entry
  let entry := put entry "inputSchema" (spec.2.get? "input")
  let entry := put entry "outputSchema" (spec.2.get? "output")
  .obj (withPattern node.codec entry mount)

def queryEntry (mount : Mount) (spec : Str × Value) : Value :=
  let entry : Object := OrderedMap.ofList [
    ("path", .str (shownPath mount ++ '/' :: spec.1)),
    ("kind", .str "query"),
    ("effect", .str "pure"),
    ("params", (spec.2.get? "params").getD (.obj []))]
  let entry := put entry "output" (spec.2.get? "output")
  .obj (withPattern node.codec (OrderedMap.extend entry (meta_ mount)) mount)

/-- The entry of a mount by the shape it presents: stores are entities, the rest actions. -/
def byShape (isStore : Bool) (effect : Value) (entry : Object) : Surface :=
  if isStore then
    ⟨[.obj (entry.insert "kind" (.str "entity"))], [], []⟩
  else
    ⟨[], [.obj ((entry.insert "kind" (.str "action")).insert "effect" effect)], []⟩

def baseEntry (mount : Mount) : Object :=
  extended (.object [("path", .str (shownPath mount)), ("idempotency", idempotency)]) (meta_ mount)

def wrapperSurface (mount : Mount) : Surface :=
  byShape (("store" : Str).isPrefixOf (patternOf node.codec mount).1)
    ((mount.config.get? "effect").getD (.str "unsafe"))
    (withPattern node.codec (baseEntry mount) mount)

/-- A deployed service appears by its manifest. -/
def codeSurface (mount : Mount) : Surface :=
  let manifest := instances.codeManifest mount
  let member := fun (key : Str) => manifest.bind fun manifest => manifest.get? key
  let entry := ([("inputSchema" : Str), "outputSchema", "description"]).foldl
    (fun entry key => put entry key (member key)) (baseEntry mount)
  let storePattern := (member "storePattern").bind Value.asStr
  let entry := put (withPattern node.codec entry mount) "pattern" (storePattern.map Value.str)
  byShape (storePattern.any fun pattern => ("store" : Str).isPrefixOf pattern)
    ((member "effect").getD (.str "unsafe")) entry

def surfaceOf (mount : Mount) : Surface :=
  if mount.service = "data" then ⟨[dataEntity node mount], [], []⟩
  else if mount.service = "pipeline" then
    ⟨[], (instances.storedSpecs mount pipelinePrefix_).map (pipelineAction node mount), []⟩
  else if mount.service = "query" then
    ⟨[], [], (instances.storedSpecs mount queryPrefix_).map (queryEntry node mount)⟩
  else if mount.service = "wrapper" then wrapperSurface node mount
  else if ("code:" : Str).isPrefixOf mount.service then codeSurface node instances mount
  else ⟨[], [], []⟩

def agentSurfaceDoc (readable : List Mount) (surface : Option Str) (tenant : Str) : Value :=
  let shown := readable.filter fun mount => exposedOn mount surface
  .object [
    ("tenant", .str tenant),
    ("entities", .arr (shown.flatMap fun mount => (surfaceOf node instances mount).entities)),
    ("actions", .arr (shown.flatMap fun mount => (surfaceOf node instances mount).actions)),
    ("queries", .arr (shown.flatMap fun mount => (surfaceOf node instances mount).queries))]

/-! ## The OpenAPI document -/

def openapiDoc (readable : List Mount) (tenant : Str) : Value :=
  .object [
    ("openapi", .str "3.1.0"),
    ("info", .object [
      ("title", .str (("RS2 tenant '" : Str) ++ tenant ++ ("'" : Str))),
      ("version", .str "0.1.0")]),
    ("paths", .object (readable.flatMap fun mount => (instances.openapiItems mount).1)),
    ("components", .object [
      ("pathItems", node.pathItems),
      ("responses", node.responses),
      ("schemas", .object (("Problem", node.problemSchema) ::
        readable.flatMap fun mount => (instances.openapiItems mount).2))])]

/-! ## Requests -/

def wellKnownPrefix_ : Str := "/.well-known/rs2/"

/-- Answer a request for a discovery document. -/
def handle (mounts : MountTable) (msg : Message) : Except RsError Message :=
  if msg.method ≠ .get then
    .error (RsError.new 405 .badRequest "Method Not Allowed" "the discovery surface is read-only")
  else
    let name := msg.url.path.drop wellKnownPrefix_.length
    let readable := readableMounts mounts msg
    if name = "services" then
      .ok (msg.okJson node.codec
        (servicesDoc node instances readable (msg.url.queryParam "surface") msg.tenant))
    else if name = "agent-surface" then
      .ok (msg.okJson node.codec
        (agentSurfaceDoc node instances readable (msg.url.queryParam "surface") msg.tenant))
    else if name = "openapi" then
      .ok (msg.okJson node.codec (openapiDoc node instances readable msg.tenant))
    else
      .error (.notFound (("no discovery document '" : Str) ++ name ++
        ("' (have: services, agent-surface, openapi)" : Str)))

/-! ## What the caller may read -/

/-- The caller's request for the base path of a mount, as it is routed there. -/
def baseRequest (msg : Message) (mount : Mount) : Message :=
  let request := probe msg mount
  { request with url := request.url.applyMount mount.basePath }

/-- The check of the mount admits the caller's request for its base path. -/
def MayRead (msg : Message) (mount : Mount) : Prop :=
  checkMountAccess (baseRequest msg mount) mount .read = .ok ()

/-- Every mount that a document is made of is one that the caller may read. -/
def ShowsReadable (mounts : MountTable) (msg : Message) : Prop :=
  ∀ mount ∈ readableMounts mounts msg, MayRead msg mount

open Classical in
/-- Two configurations have the same mounts that the caller may read, in the same order. -/
def DifferUnread (msg : Message) (left right : MountTable) : Prop :=
  left.mounts.filter (fun mount => MayRead msg mount) =
    right.mounts.filter fun mount => MayRead msg mount

/-- The mount has a policy, and a path-scoped grant that covers its base path is not all that would
let the caller read. -/
def Checked (msg : Message) (mount : Mount) : Prop :=
  ∃ access, mount.config.get? "access" = some access ∧
    ∀ spec, access = .obj spec → msg.source ≠ .system →
      ∀ role pattern, (role, some pattern) ∈ grants (resolveRole spec .read) →
        holdsRole msg.principal role = true →
        inScope (resolveScope msg.principal pattern) (MsgUrl.parse mount.basePath).path = true →
          ∃ grant ∈ grants (resolveRole spec .read), admits msg.principal ("/" : Str) grant = true

variable {mounts : MountTable} {msg : Message}

/-- A request for the base path has no path within the mount. -/
theorem servicePath_baseRequest {mount : Mount} (member : mount ∈ mounts.mounts) (msg : Message) :
    (baseRequest msg mount).url.servicePath = "/" := by
  obtain ⟨path, normal⟩ := mounts.normal mount member
  have whole : (MsgUrl.parse mount.basePath).path.drop
      (mount.basePath.rdropWhile (· = '/')).length = [] := by
    rw [normal, rdropWhile_normalizeBasePath, MsgUrl.path_parse, List.drop_eq_nil_iff]
    exact (List.takeWhile_prefix _).length_le
  show (if (MsgUrl.parse mount.basePath).path.drop
    (mount.basePath.rdropWhile (· = '/')).length = [] then ("/" : Str) else _) = _
  rw [if_pos whole]

/-- When a policy admits a request. -/
def Satisfies (access : Value) (action : Action) (msg : Message) : Prop :=
  match access with
  | .str policy => policy = ("open" : Str) ∨ policy = ("authenticated" : Str) ∧ msg.principal.isSome
  | .obj spec => satisfiesRoleSpec (resolveRole spec action) msg = true
  | _ => False

theorem checkRoleSpec_eq_ok_iff (access : Value) (action : Action) (msg : Message) :
    checkRoleSpec access action msg = .ok () ↔ msg.source = .system ∨ Satisfies access action msg := by
  unfold checkRoleSpec
  by_cases system : msg.source = .system
  · simp [system]
  · rw [if_neg system]
    simp only [system, false_or]
    cases access with
    | str policy =>
      unfold Satisfies
      dsimp only
      by_cases open_ : policy = ("open" : Str)
      · rw [if_pos open_]
        exact ⟨fun _ => .inl open_, fun _ => rfl⟩
      · rw [if_neg open_]
        by_cases authenticated : policy = ("authenticated" : Str)
        · rw [if_pos authenticated]
          by_cases present : msg.principal.isSome = true
          · rw [if_pos present]
            exact ⟨fun _ => .inr ⟨authenticated, present⟩, fun _ => rfl⟩
          · rw [if_neg present]
            refine ⟨nofun, ?_⟩
            rintro (isOpen | ⟨-, isPresent⟩)
            · exact absurd isOpen open_
            · exact absurd isPresent present
        · rw [if_neg authenticated]
          refine ⟨nofun, ?_⟩
          rintro (isOpen | ⟨isAuthenticated, -⟩)
          · exact absurd isOpen open_
          · exact absurd isAuthenticated authenticated
    | obj spec =>
      unfold Satisfies
      dsimp only
      cases satisfiesRoleSpec (resolveRole spec action) msg with
      | true => simp
      | false =>
        rw [if_neg Bool.false_ne_true]
        split <;> simp
    | null => simp [Satisfies]
    | bool value => simp [Satisfies]
    | num value => simp [Satisfies]
    | arr items => simp [Satisfies]

/-- A grant without a scope admits everywhere, so only scoped ones can make a difference. -/
theorem scoped_grants_iff (msg : Message) (mount : Mount) (spec : Object)
    (external : msg.source ≠ .system) :
    ((∃ grant ∈ grants (resolveRole spec .read),
        admits (probe msg mount).principal (probe msg mount).url.servicePath grant = true) →
      ∃ grant ∈ grants (resolveRole spec .read), admits msg.principal ("/" : Str) grant = true) ↔
    ∃ access, some (Value.obj spec) = some access ∧
      ∀ other, access = .obj other → msg.source ≠ .system →
        ∀ role pattern, (role, some pattern) ∈ grants (resolveRole other .read) →
          holdsRole msg.principal role = true →
          inScope (resolveScope msg.principal pattern) (MsgUrl.parse mount.basePath).path = true →
            ∃ grant ∈ grants (resolveRole other .read),
              admits msg.principal ("/" : Str) grant = true := by
  have path : (probe msg mount).url.servicePath = (MsgUrl.parse mount.basePath).path := by
    show (MsgUrl.parse mount.basePath).servicePath = _
    unfold MsgUrl.parse
    split <;> rfl
  rw [path]
  constructor
  · rintro implies
    refine ⟨_, rfl, ?_⟩
    rintro _ ⟨⟩ - role pattern member holds covers
    apply implies
    refine ⟨(role, some pattern), member, ?_⟩
    exact Bool.and_eq_true_iff.mpr ⟨holds, covers⟩
  · rintro ⟨_, ⟨⟩, checked⟩ ⟨⟨role, scope⟩, member, admitted⟩
    obtain ⟨holds, within⟩ := Bool.and_eq_true_iff.mp admitted
    cases scope with
    | none => exact ⟨(role, none), member, Bool.and_eq_true_iff.mpr ⟨holds, rfl⟩⟩
    | some pattern => exact checked spec rfl external role pattern member holds within

/-- A mount is shown only to callers who may read it exactly if it is checked. -/
theorem mayRead_of_readable_iff {mount : Mount} (member : mount ∈ mounts.mounts) (msg : Message) :
    (isReadable msg mount = true → MayRead msg mount) ↔ Checked msg mount := by
  unfold isReadable MayRead checkMountAccess Checked
  cases mount.config.get? "access" with
  | none =>
    refine ⟨fun reveals => ?_, nofun⟩
    have admitted := reveals rfl
    dsimp only at admitted
    split at admitted <;> cases admitted
  | some access =>
    dsimp only
    have shown : (checkRoleSpec access .read (probe msg mount)).isOk = true ↔
        msg.source = .system ∨ Satisfies access .read (probe msg mount) := by
      rw [← show (probe msg mount).source = msg.source from rfl, ← checkRoleSpec_eq_ok_iff]
      cases checkRoleSpec access .read (probe msg mount) <;> simp [Except.isOk, Except.toBool]
    rw [shown, checkRoleSpec_eq_ok_iff, show (baseRequest msg mount).source = msg.source from rfl]
    by_cases system : msg.source = .system
    · exact ⟨fun _ => ⟨access, rfl, fun _ _ notSystem => absurd system notSystem⟩,
        fun _ _ => .inl system⟩
    · simp only [system, false_or]
      cases access with
      | obj spec =>
        show (satisfiesRoleSpec (resolveRole spec .read) (probe msg mount) = true →
          satisfiesRoleSpec (resolveRole spec .read) (baseRequest msg mount) = true) ↔ _
        rw [satisfiesRoleSpec_iff, satisfiesRoleSpec_iff, servicePath_baseRequest member]
        exact scoped_grants_iff _ _ _ system
      | str policy => exact ⟨fun _ => ⟨_, rfl, nofun⟩, fun _ => id⟩
      | null => exact ⟨fun _ => ⟨_, rfl, nofun⟩, fun _ => id⟩
      | bool value => exact ⟨fun _ => ⟨_, rfl, nofun⟩, fun _ => id⟩
      | num value => exact ⟨fun _ => ⟨_, rfl, nofun⟩, fun _ => id⟩
      | arr items => exact ⟨fun _ => ⟨_, rfl, nofun⟩, fun _ => id⟩

open Classical in
/-- What is shown is among what the caller may read. -/
theorem readableMounts_eq_filter (shows : ShowsReadable mounts msg) :
    readableMounts mounts msg =
      (mounts.mounts.filter fun mount => MayRead msg mount).filter (isReadable msg) := by
  unfold readableMounts
  rw [List.filter_filter]
  refine List.filter_congr fun mount member => ?_
  cases readable : isReadable msg mount with
  | false => rfl
  | true =>
    have admitted := shows mount (List.mem_filter.mpr ⟨member, readable⟩)
    simp [admitted]

/-- Configurations that differ in unread mounts only give the same answer, if they show no others. -/
theorem handle_of_differUnread (node : Node) (instances : Instances) {left right : MountTable}
    (leftShows : ShowsReadable left msg) (rightShows : ShowsReadable right msg)
    (unread : DifferUnread msg left right) :
    handle node instances left msg = handle node instances right msg := by
  have same : readableMounts left msg = readableMounts right msg := by
    rw [readableMounts_eq_filter leftShows, readableMounts_eq_filter rightShows]
    exact congrArg (List.filter (isReadable msg)) unread
  unfold handle
  rw [same]

/-- Discovery reveals to a caller only what they may read of two configurations: neither shows
another mount, and the answers do not tell configurations apart that differ in other mounts only. -/
def RevealsOnlyReadable (msg : Message) (left right : MountTable) : Prop :=
  ShowsReadable left msg ∧ ShowsReadable right msg ∧
    (DifferUnread msg left right →
      ∀ node instances, handle node instances left msg = handle node instances right msg)

/-- For every two configurations and every request of a caller: discovery reveals only what the
caller may read exactly if every mount has a policy, and no path-scoped grant that covers the base
path of a mount is all that would let the caller read there. -/
theorem discovery_reveals_only_readable_iff (msg : Message) (left right : MountTable) :
    RevealsOnlyReadable msg left right ↔
      ∀ mount, mount ∈ left.mounts ∨ mount ∈ right.mounts → Checked msg mount := by
  have shows_iff : ∀ mounts : MountTable,
      ShowsReadable mounts msg ↔ ∀ mount ∈ mounts.mounts, Checked msg mount := by
    intro mounts
    constructor
    · intro shows mount member
      apply (mayRead_of_readable_iff member msg).mp
      intro readable
      exact shows mount (List.mem_filter.mpr ⟨member, readable⟩)
    · intro checked mount shown
      obtain ⟨member, readable⟩ := List.mem_filter.mp shown
      exact (mayRead_of_readable_iff member msg).mpr (checked mount member) readable
  unfold RevealsOnlyReadable
  constructor
  · rintro ⟨leftShows, rightShows, -⟩ mount (member | member)
    · exact (shows_iff left).mp leftShows mount member
    · exact (shows_iff right).mp rightShows mount member
  · intro checked
    have leftShows := (shows_iff left).mpr fun mount member => checked mount (.inl member)
    have rightShows := (shows_iff right).mpr fun mount member => checked mount (.inr member)
    exact ⟨leftShows, rightShows, fun unread node instances =>
      handle_of_differUnread node instances leftShows rightShows unread⟩

/-! A mount without a policy, and one whose base path its own grant happens to cover. -/

def emptyTable : MountTable :=
  ⟨[], nofun, List.nodup_nil, .nil⟩

def privateTable : MountTable where
  mounts := [⟨"/private", "data", .obj []⟩]
  normal := by
    intro mount member
    obtain rfl := List.mem_singleton.mp member
    exact ⟨"/private", by decide⟩
  distinct := List.nodup_singleton _
  sorted := List.pairwise_singleton _ _

def scopedTable : MountTable where
  mounts := [⟨"/user/ann", "data",
    .object [("access", .object [("read", .str "U /user/\x7bemail\x7d")])]⟩]
  normal := by
    intro mount member
    obtain rfl := List.mem_singleton.mp member
    exact ⟨"/user/ann", by decide⟩
  distinct := List.nodup_singleton _
  sorted := List.pairwise_singleton _ _

/-- A request for the catalogue. -/
def catalogueRequest (principal : Option Principal) : Message :=
  { Message.request .get "/.well-known/rs2/services" "t" "trace" with principal := principal }

def ann : Principal :=
  ⟨"ann", ["U"], "user", []⟩

/-- The paths that the catalogue of a table would show. -/
def shownPaths (mounts : MountTable) (msg : Message) : List Str :=
  (readableMounts mounts msg).map shownPath

theorem not_showsReadable (shown : readableMounts mounts msg ≠ [])
    (refused : ∀ mount ∈ mounts.mounts,
      (checkMountAccess (baseRequest msg mount) mount .read).isOk = false) :
    ¬ ShowsReadable mounts msg := by
  intro shows
  obtain ⟨mount, member⟩ := List.exists_mem_of_ne_nil _ shown
  have may := shows mount member
  have refuses := refused mount (List.mem_of_mem_filter member)
  unfold MayRead at may
  rw [may] at refuses
  cases refuses

/-- A mount without a policy is shown to everyone, though no one may read it; and a mount is shown
to a caller whose grant covers its base path, though it does not let them read there. -/
theorem discovery_shows_unreadable_mounts :
    shownPaths privateTable (catalogueRequest none) = [("/private" : Str)] ∧
      ¬ RevealsOnlyReadable (catalogueRequest none) privateTable emptyTable ∧
      shownPaths scopedTable (catalogueRequest (some ann)) = [("/user/ann" : Str)] ∧
      ¬ RevealsOnlyReadable (catalogueRequest (some ann)) scopedTable emptyTable := by
  refine ⟨by decide +kernel, fun reveals => ?_, by decide +kernel, fun reveals => ?_⟩
  · exact not_showsReadable (by decide +kernel) (by decide +kernel) reveals.1
  · exact not_showsReadable (by decide +kernel) (by decide +kernel) reveals.1

end Rs2Runtime.Runtime.Discovery
