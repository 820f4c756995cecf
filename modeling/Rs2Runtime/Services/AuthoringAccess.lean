import Rs2Runtime.Message.Stream
import Rs2Runtime.Services.PipelineService
import Rs2Runtime.Services.SpecAuthority

/-!
Contract: which role a caller needs to change the stored pipelines of a mount.

Owns:
- a pipeline mount as a whole: the host's check, the authoring subtree with its plans, and the
  execution of stored pipelines;
- which requests may change what is stored;
- when callers who may neither write nor delete change nothing.

Does not own: requests that a running pipeline sends, each of which is a request of its own, or
how execution goes.
-/

namespace Rs2Runtime.Services

open Text Data Json Capabilities Wrapper
open Pipeline (PipelineSpec)

/-! ## Pipeline mounts -/

/-- A mount of the pipeline service over its store.  The last three fields are the reading of a
stored pipeline, the answer with its plan, and the answer of running it. -/
structure PipelineMount where
  mount : Mount
  isPipeline : mount.service = "pipeline"
  store : SpecStore
  isSubtree : store.subtree = PipelineService.pipelineSubtree
  /-- Some pipeline without access of its own is valid and within the limit for bodies. -/
  authorable : ∃ body read stored,
    Body.asJson store.codec body store.materializedBodyBytes = .ok read ∧
      read.1.get? "access" = none ∧ store.validator.validate read.1 = .ok stored
  readSpec : Value → Except Str PipelineSpec
  planned : PipelineSpec → Message → Message
  run : PipelineSpec → (matchedLen : Nat) → Message → Except RsError Message

namespace PipelineMount

variable (service : PipelineMount)

def specFromDoc (doc : Value) : Except RsError PipelineSpec :=
  PipelineService.specFromDoc ⟨fun _ => none, service.readSpec⟩ doc

/-- Whether a request asks for the plan of a stored pipeline. -/
def asksPlan (msg : Message) : Bool :=
  msg.method = .get && !msg.url.isDirectory && (msg.url.queryParam "$plan").isSome

def plan (msg : Message) : Effect RsError service.store.State Message := do
  let rel := (stripStart ('/' :: PipelineService.pipelineSubtree) msg.url.servicePath).getD "/"
  let doc ← SpecStore.read rel
  let spec ← Effect.ofExcept (service.specFromDoc doc)
  return service.planned spec msg

def execute (msg : Message) : Effect RsError service.store.State Message := do
  let segments := msg.url.serviceSegments
  match ← SpecStore.resolve segments segments.length with
  | none => Effect.fail (PipelineService.noPipeline msg)
  | some (doc, matchedLen) => do
      let spec ← Effect.ofExcept (service.specFromDoc doc)
      let _ ← Effect.ofExcept
        (PipelineService.checkEffectiveAccess service.mount.config doc msg)
      Effect.ofExcept (service.run spec matchedLen msg)

def handle (freshName : Str) (msg : Message) : Effect RsError service.store.State Message :=
  if service.store.isAuthoring msg then
    if asksPlan msg then service.plan msg else service.store.handleAuthoring freshName msg
  else
    service.execute msg

/-- A request to the mount: the host's check, then the service. -/
def request (freshName : Str) (msg : Message) : Effect RsError service.store.State Message := do
  let _ ← Effect.ofExcept (checkAccess msg service.mount)
  service.handle freshName msg

/-- The mount lets a request pass for an action. -/
def Allows (action : Action) (msg : Message) : Prop :=
  checkMountAccess msg service.mount action = .ok ()

/-- No request of a caller changes what is stored, unless the caller may write or delete at its
path. -/
def Protected (caller : Option Principal) : Prop :=
  ∀ (freshName : Str) (msg : Message) (state : service.store.State), msg.principal = caller →
    ¬ service.Allows .write msg → ¬ service.Allows .delete msg →
      (service.request freshName msg state).2.map.files = state.map.files

/-- Wherever in the authoring subtree a caller may invoke, they may write or delete as well. -/
def InvokersMayAuthor (caller : Option Principal) : Prop :=
  ∀ msg : Message, msg.principal = caller → service.store.isAuthoring msg = true →
    service.Allows .invoke msg → service.Allows .write msg ∨ service.Allows .delete msg

/-! ## The service over its store is the service over its documents -/

/-- The stored pipelines of a state. -/
def pipelines (state : service.store.State) : PipelineService.StoredPipelines where
  resolve := fun segments =>
    (@SpecStore.resolve service.store segments segments.length state).1.toOption.join
  read := service.readSpec

/-- What the service does in a state with the requests it lets through. -/
def handlers (freshName : Str) (state : service.store.State) : PipelineService.Handlers where
  author := fun msg =>
    if asksPlan msg then (service.plan msg state).1
    else (service.store.handleAuthoring freshName msg state).1
  run := service.run

variable {service : PipelineMount}

theorem handle_eq_service (freshName : Str) (msg : Message) (state : service.store.State) :
    (service.handle freshName msg state).1 =
      PipelineService.handle (service.pipelines state) (service.handlers freshName state)
        service.mount.config msg := by
  have sameSubtree : PipelineService.isAuthoring msg = service.store.isAuthoring msg := by
    rw [PipelineService.isAuthoring, SpecStore.isAuthoring, service.isSubtree]
  rw [handle, PipelineService.handle, sameSubtree]
  split
  · change _ = if asksPlan msg then _ else _
    split <;> rfl
  · obtain ⟨found, after, resolved⟩ : ∃ found after, SpecStore.resolve msg.url.serviceSegments
        msg.url.serviceSegments.length state = (.ok found, after) := ⟨_, _, rfl⟩
    have sameFound : (service.pipelines state).resolve msg.url.serviceSegments = found := by
      change Option.join (Except.toOption (SpecStore.resolve msg.url.serviceSegments
        msg.url.serviceSegments.length state).1) = found
      rw [resolved]
      rfl
    rw [execute, Effect.bind_of_ok resolved, sameFound]
    cases found with
    | none => rfl
    | some found =>
      obtain ⟨doc, matchedLen⟩ := found
      have sameRead : PipelineService.specFromDoc (service.pipelines state) doc =
          service.specFromDoc doc := rfl
      dsimp only
      rw [sameRead]
      cases service.specFromDoc doc with
      | error e => rfl
      | ok spec =>
        rw [Effect.bind_of_ok (Effect.ofExcept_run _ _)]
        cases PipelineService.checkEffectiveAccess service.mount.config doc msg <;> rfl

/-! ## Requests that change nothing -/

theorem execute_keeps (msg : Message) :
    Effect.Keeps SpecStore.SameFiles (service.execute msg) := by
  refine Effect.keeps_bind (fun _ => rfl) fun found => ?_
  cases found with
  | none => exact Effect.keeps_fail _
  | some found =>
    exact Effect.keeps_bind (Effect.keeps_ofExcept _) fun _ =>
      Effect.keeps_bind (Effect.keeps_ofExcept _) fun _ => Effect.keeps_ofExcept _

theorem plan_keeps (msg : Message) :
    Effect.Keeps SpecStore.SameFiles (service.plan msg) :=
  Effect.keeps_bind (SpecStore.map_read _) fun _ =>
    Effect.keeps_bind (Effect.keeps_ofExcept _) fun _ => Effect.keeps_pure _

end PipelineMount

variable {msg : Message} {body : Body} {octets : Octets}

namespace SpecStore

variable {store : SpecStore}

/-- Preparing a request touches nothing but its body. -/
theorem prepare_method {prepared : Message} {state after : store.State}
    (done : store.prepare msg state = (.ok prepared, after)) : prepared.method = msg.method := by
  unfold prepare at done
  split at done
  · obtain ⟨doc, -, rest⟩ := Effect.ofExcept_bind_eq_ok.mp done
    rw [Effect.bind_of_ok (Effect.attempt_run _ _)] at rest
    obtain ⟨-, -, validated⟩ := Effect.ofExcept_bind_eq_ok.mp rest
    obtain ⟨stored, -, finished⟩ := Effect.ofExcept_bind_eq_ok.mp validated
    obtain ⟨rfl, -⟩ := Effect.pure_eq_ok.mp finished
    rfl
  · obtain ⟨rfl, -⟩ := Effect.pure_eq_ok.mp done
    rfl

theorem handleAuthoring_of_prepared {freshName : Str} {prepared : Message}
    {state between : store.State}
    (ran : store.prepare (store.inner msg) state = (.ok prepared, between)) :
    (store.handleAuthoring freshName msg state).2 =
      (store.delegate freshName prepared between).2 := by
  rw [handleAuthoring, Effect.bind_of_ok ran]
  exact Effect.bind_state_of_still (fun _ _ => rfl) between

/-- A request whose method reads leaves the files. -/
theorem map_handleAuthoring_of_read (reads : actionFor msg.method = .read) (freshName : Str)
    (state : store.State) :
    (store.handleAuthoring freshName msg state).2.map = state.map := by
  have kept := prepare_keeps (store.inner msg) state
  rcases ran : store.prepare (store.inner msg) state with ⟨e | prepared, between⟩
  · rw [ran] at kept
    rw [handleAuthoring, Effect.bind_of_error ran]
    exact kept
  · rw [ran] at kept
    have method : prepared.method = (store.inner msg).method := prepare_method ran
    rw [handleAuthoring_of_prepared ran, delegate]
    split
    · exact kept
    · next other =>
        have options : prepared.method = .options := by
          rw [method] at other ⊢
          change ¬ (msg.method = .get ∨ msg.method = .head) at other
          change msg.method = .options
          cases isMethod : msg.method <;> simp_all [actionFor]
        rw [FileService.handle, options, if_neg (by decide)]
        exact kept

/-! ## A post that stores its body -/

theorem writePrecondition_of_bare (bare : msg.headers = []) : writePrecondition msg = .none := by
  have absent : ∀ name, msg.header name = none := by
    intro name
    rw [Message.header, bare]
    rfl
  rw [writePrecondition, absent, absent]
  rfl

/-- A bare write to a file stores its body. -/
theorem upsert_of_bare {version : Octets → Str} (bare : msg.headers = [])
    (file : msg.url.isDirectory = false) (given : msg.body = some body)
    (streamed : body.streamed = .ok octets) (map : FileMap) :
    (files.upsert (FileMap.store version) msg map).2 =
      map.put (segments msg.url.servicePath) octets := by
  have isFile : Outcome.require (msg.url.isDirectory = false)
      (RsError.badRequest "cannot PUT to a directory path") = .ok () :=
    Outcome.require_eq_ok.mpr file
  have stored : FileMap.write msg.url.servicePath body map =
      (.ok (map.content msg.url.servicePath).isNone,
        map.put (segments msg.url.servicePath) octets) := by
    rw [FileMap.write, streamed]
  have written : ((FileMap.store version).writeCond msg.url.servicePath body
      (writePrecondition msg) map).2 = map.put (segments msg.url.servicePath) octets := by
    have checked : Effect.reading ((FileMap.store version).checkWrite msg.url.servicePath
        .none) map = (.ok (), map) := rfl
    rw [writePrecondition_of_bare bare, FileStore.writeCond, Effect.bind_of_ok checked]
    refine (Effect.bind_state_of_still (fun created after => ?_) map).trans
      (congrArg Prod.snd stored)
    exact Effect.bind_state_of_still (fun _ _ => rfl) after
  have named : Effect.ofExcept (files.storePath msg.url.servicePath) map =
      (.ok msg.url.servicePath, map) := rfl
  rw [FileService.upsert, isFile, Effect.bind_of_ok (Effect.ofExcept_run _ _),
    FileService.requireBody_eq_ok.mpr given, Effect.bind_of_ok (Effect.ofExcept_run _ _),
    Effect.bind_of_ok named]
  refine (Effect.bind_state_of_still (fun outcome after => ?_) map).trans written
  split <;> rfl

/-- A post to a directory stores its body as a new file. -/
theorem createChild_of_body {host : FileHost FileMap} {version : Octets → Str}
    (given : msg.body = some body) (streamed : body.streamed = .ok octets) (map : FileMap) :
    (FileService.createChild host (FileMap.store version) msg map).2 =
      map.put (segments (FileService.childPath host msg.url.servicePath body.mediaType)) octets := by
  have stored : FileMap.write (FileService.childPath host msg.url.servicePath body.mediaType) body
      map = (.ok (map.content
        (FileService.childPath host msg.url.servicePath body.mediaType)).isNone,
        map.put (segments (FileService.childPath host msg.url.servicePath body.mediaType))
          octets) := by
    rw [FileMap.write, streamed]
  rw [FileService.createChild, FileService.requireBody_eq_ok.mpr given,
    Effect.bind_of_ok (Effect.ofExcept_run _ _)]
  refine (Effect.bind_state_of_still (fun created after => ?_) map).trans
    (congrArg Prod.snd stored)
  refine Effect.bind_state_of_still (fun etag last => ?_) after
  cases etag <;> rfl

end SpecStore

namespace PipelineMount

variable {service : PipelineMount}

/-! ## Access of authoring requests -/

/-- What the mount allows depends on the caller, the path and where the request comes from. -/
theorem allows_congr {action : Action} {left right : Message}
    (samePrincipal : left.principal = right.principal) (sameUrl : left.url = right.url)
    (sameSource : left.source = right.source) :
    service.Allows action left ↔ service.Allows action right := by
  have sameRoles : ∀ spec, satisfiesRoleSpec spec left = satisfiesRoleSpec spec right := by
    intro spec
    rw [satisfiesRoleSpec, satisfiesRoleSpec, samePrincipal, sameUrl]
  unfold Allows checkMountAccess
  cases service.mount.config.get? "access" with
  | none =>
    dsimp only
    rw [samePrincipal]
  | some access =>
    unfold checkRoleSpec
    rw [sameSource, samePrincipal]
    cases access with
    | obj spec =>
      dsimp only
      rw [sameRoles]
      split
      · rfl
      · split
        · rfl
        · split <;> exact ⟨nofun, nofun⟩
    | null | bool _ | num _ | str _ | arr _ => rfl

/-- The host holds authoring requests to the mount's access. -/
theorem checkAccess_of_authoring (authoring : service.store.isAuthoring msg = true) :
    checkAccess msg service.mount = checkMountAccess msg service.mount (actionFor msg.method) := by
  have dotted : isInstructionPath msg.url = true := by
    rw [SpecStore.isAuthoring, service.isSubtree, decide_eq_true_eq] at authoring
    unfold isInstructionPath
    split
    · next empty =>
        rw [empty] at authoring
        cases authoring
    · next first rest split_ =>
        rw [split_] at authoring
        cases authoring
        rfl
  rw [checkAccess, if_neg (by simp [dotted])]

/-- Callers who may not author change nothing. -/
theorem protected_of_invokersMayAuthor {caller : Option Principal}
    (condition : service.InvokersMayAuthor caller) : service.Protected caller := by
  intro freshName msg state isCaller noWrite noDelete
  suffices same : (service.request freshName msg state).2.map = state.map by rw [same]
  rcases Effect.ofExcept_bind_cases (checkAccess msg service.mount)
    (fun _ => service.handle freshName msg) state with stayed | ⟨⟨⟩, passed, went⟩
  · exact congrArg SpecStore.State.map stayed
  rw [request, went, handle]
  split
  case isFalse => exact execute_keeps msg state
  case isTrue authoring =>
    split
    case isTrue => exact plan_keeps msg state
    case isFalse =>
      rw [checkAccess_of_authoring authoring] at passed
      cases action : actionFor msg.method with
      | read => exact SpecStore.map_handleAuthoring_of_read action freshName state
      | write =>
        rw [action] at passed
        exact absurd passed noWrite
      | delete =>
        rw [action] at passed
        exact absurd passed noDelete
      | invoke =>
        rw [action] at passed
        exact ((condition msg isCaller authoring passed).elim noWrite noDelete).elim

/-! ## Posting where invocation is allowed -/

/-- The post of a body to the path of a request, by its caller. -/
def posted (msg : Message) (body : Body) : Message :=
  { msg with
    method := .post
    headers := []
    body := some body }

def nothingStored : service.store.State :=
  .ofMap ⟨[], []⟩

theorem files_put_ne_nil (map : FileMap) (key : FileKey) (octets : Octets) :
    (map.put key octets).files ≠ [] := by
  intro empty
  have found := FileMap.get?_put map key key octets
  rw [if_pos rfl, empty] at found
  cases found

theorem allows_posted {action : Action} :
    service.Allows action (posted msg body) ↔ service.Allows action msg :=
  allows_congr rfl rfl rfl

/-- A post to a file of the subtree is stored, without the checks of a write. -/
theorem posted_to_file (streamed : body.streamed = .ok octets)
    (file : (service.store.inner (posted msg body)).url.isDirectory = false) :
    (service.store.handleAuthoring [] (posted msg body) nothingStored).2.map.files ≠ [] := by
  have plain : SpecStore.isWrite (service.store.inner (posted msg body)) = false := by
    rw [SpecStore.isWrite, file]
    rfl
  have ran : service.store.prepare (service.store.inner (posted msg body)) nothingStored =
      (.ok (service.store.inner (posted msg body)), nothingStored) := by
    rw [SpecStore.prepare, plain]
    rfl
  have upsert : ∀ host map, SpecStore.files.handle host (FileMap.store service.store.version)
      (service.store.inner (posted msg body)) map =
      SpecStore.files.upsert (FileMap.store service.store.version)
        (service.store.inner (posted msg body)) map := by
    intro host map
    have notMove : Method.post.name ≠ "MOVE" := by decide
    have notDirectory : ¬ (service.store.inner (posted msg body)).url.isDirectory = true := by
      rw [file]
      decide
    rw [FileService.handle]
    exact (congrFun (if_neg notMove) map).trans (congrFun (if_neg notDirectory) map)
  rw [SpecStore.handleAuthoring_of_prepared ran, SpecStore.delegate]
  rw [if_neg (by simp [SpecStore.inner, posted])]
  dsimp only
  rw [SpecStore.State.ofMap, upsert, SpecStore.upsert_of_bare rfl file rfl streamed]
  exact files_put_ne_nil _ _ _

section Posted

variable {read : Value × Body} {stored : Value}
  (parsed : body.asJson service.store.codec service.store.materializedBodyBytes = .ok read)
  (unguarded : read.1.get? "access" = none)
  (valid : service.store.validator.validate read.1 = .ok stored)

include parsed unguarded valid

theorem prepare_posted
    (directory : (service.store.inner (posted msg body)).url.isDirectory = true) :
    (service.store.prepare (service.store.inner (posted msg body)) nothingStored).1 =
      .ok { service.store.inner (posted msg body) with
        body := some (Body.fromString (service.store.codec.print stored) .json) } := by
  have write : SpecStore.isWrite (service.store.inner (posted msg body)) = true := by
    rw [SpecStore.isWrite, directory]
    rfl
  have given : service.store.bodyDoc (service.store.inner (posted msg body)) = .ok read.1 := by
    change (Except.map Prod.fst
      (body.asJson service.store.codec service.store.materializedBodyBytes)) = _
    rw [parsed]
    rfl
  have absent : SpecStore.accessOf ((@SpecStore.read service.store
      (service.store.inner (posted msg body)).url.servicePath nothingStored).1.toOption) = none := by
    rw [SpecStore.read_toOption]
    rfl
  have authority : service.store.checkAuthority (service.store.inner (posted msg body)) read.1
      ((@SpecStore.read service.store
        (service.store.inner (posted msg body)).url.servicePath nothingStored).1.toOption) =
        .ok () := by
    refine Outcome.require_eq_ok.mpr (.inl ?_)
    rw [absent]
    exact unguarded
  rw [SpecStore.prepare, if_pos write, SpecStore.admitWrite, given,
    Effect.bind_of_ok (Effect.ofExcept_run _ _), Effect.bind_of_ok (Effect.attempt_run _ _),
    authority, Effect.bind_of_ok (Effect.ofExcept_run _ _), valid,
    Effect.bind_of_ok (Effect.ofExcept_run _ _)]
  rfl

/-- A post to a directory of the subtree is stored as a new file. -/
theorem posted_to_directory
    (directory : (service.store.inner (posted msg body)).url.isDirectory = true) :
    (service.store.handleAuthoring [] (posted msg body) nothingStored).2.map.files ≠ [] := by
  have prepared := prepare_posted parsed unguarded valid directory
  rcases ran : service.store.prepare (service.store.inner (posted msg body)) nothingStored with
    ⟨outcome, between⟩
  rw [ran] at prepared
  cases prepared
  have create : ∀ host map, SpecStore.files.handle host (FileMap.store service.store.version)
      { service.store.inner (posted msg body) with
        body := some (Body.fromString (service.store.codec.print stored) .json) } map =
      FileService.createChild host (FileMap.store service.store.version)
        { service.store.inner (posted msg body) with
          body := some (Body.fromString (service.store.codec.print stored) .json) } map := by
    intro host map
    have notMove : Method.post.name ≠ "MOVE" := by decide
    rw [FileService.handle]
    exact (congrFun (if_neg notMove) map).trans (congrFun (if_pos directory) map)
  rw [SpecStore.handleAuthoring_of_prepared ran, SpecStore.delegate]
  rw [if_neg (by simp [SpecStore.inner, posted])]
  dsimp only
  rw [SpecStore.State.ofMap, create, SpecStore.createChild_of_body rfl rfl]
  exact files_put_ne_nil _ _ _

/-- A post where the caller may invoke is stored. -/
theorem request_posted (authoring : service.store.isAuthoring msg = true)
    (invokes : service.Allows .invoke msg) :
    (service.request [] (posted msg body) nothingStored).2.map.files ≠ [] := by
  have enters : service.store.isAuthoring (posted msg body) = true := authoring
  have passed : checkAccess (posted msg body) service.mount = .ok () := by
    rw [checkAccess_of_authoring enters]
    exact allows_posted.mpr invokes
  have noPlan : asksPlan (posted msg body) = false := rfl
  rw [request, passed, Effect.bind_of_ok (Effect.ofExcept_run _ _), handle, if_pos enters, noPlan,
    if_neg Bool.false_ne_true]
  cases directory : (service.store.inner (posted msg body)).url.isDirectory with
  | true => exact posted_to_directory parsed unguarded valid directory
  | false =>
    obtain ⟨octets, streamed⟩ := Body.streamed_of_asJson parsed
    exact posted_to_file streamed directory

end Posted

/-- Callers who may neither write nor delete change no stored pipeline if and only if they may
not invoke in the authoring subtree. -/
theorem specs_protected_iff (service : PipelineMount) (caller : Option Principal) :
    service.Protected caller ↔ service.InvokersMayAuthor caller := by
  constructor
  · intro protects msg isCaller authoring invokes
    by_contra refused
    obtain ⟨noWrite, noDelete⟩ := not_or.mp refused
    obtain ⟨body, read, stored, parsed, unguarded, valid⟩ := service.authorable
    refine request_posted parsed unguarded valid authoring invokes ?_
    refine protects [] (posted msg body) nothingStored isCaller ?_ ?_
    · exact fun allowed => noWrite (allows_posted.mp allowed)
    · exact fun allowed => noDelete (allows_posted.mp allowed)
  · exact protected_of_invokersMayAuthor

/-! A mount that everybody may invoke and administrators may write to. -/

/-- Takes every pipeline for one without steps. -/
def emptyReader : PipelineReader where
  typed := fun _ => .ok (.arr [])
  typedWellFormed := by
    intro spec form typed
    cases typed
    exact trivial
  retry := fun _ => .ok ()

def emptyPipeline : Value := Value.object [("pipeline", .arr [])]

def invocable : PipelineMount where
  mount := ⟨"/p", "pipeline",
    Value.object [("access", Value.object [("invoke", .str "all"), ("write", .str "A")])]⟩
  isPipeline := rfl
  store :=
    { codec := Tagged.codec
      subtree := ".pipelines"
      validator := pipelineValidator emptyReader
      operatorRoles := "A"
      materializedBodyBytes := 1000
      version := fun _ => "v"
      canonicalExtension := fun _ => some "json"
      serve := fun _ _ => .error (.notFound "nothing served") }
  isSubtree := rfl
  authorable := by
    refine ⟨Body.fromJson Tagged.codec emptyPipeline,
      (emptyPipeline, Body.fromJson Tagged.codec emptyPipeline), emptyPipeline, ?_, ?_, ?_⟩
    · decide +kernel
    · decide +kernel
    · decide +kernel
  readSpec := fun _ => .error "no steps"
  planned := fun _ msg => msg.ok none
  run := fun _ _ msg => .ok (msg.ok none)

def anonymousPost : Message :=
  let msg := Message.request .post "/p/.pipelines/x" "t" "trace"
  { msg with
    url := msg.url.applyMount "/p"
    body := some (Body.fromJson Tagged.codec emptyPipeline) }

/-- Anonymous callers, who may neither write nor delete, store a pipeline by posting it. -/
theorem anonymous_post_stores_pipeline :
    ¬ invocable.Allows .write anonymousPost ∧ ¬ invocable.Allows .delete anonymousPost ∧
      (invocable.request "f" anonymousPost nothingStored).2.map.content "/x" =
        some (Tagged.codec.encode emptyPipeline) ∧
      ¬ invocable.Protected none := by
  have noWrite : ¬ invocable.Allows .write anonymousPost := by
    rw [Allows]
    decide +kernel
  have noDelete : ¬ invocable.Allows .delete anonymousPost := by
    rw [Allows]
    decide +kernel
  have stored : (invocable.request "f" anonymousPost nothingStored).2.map.content "/x" =
      some (Tagged.codec.encode emptyPipeline) := by
    decide +kernel
  refine ⟨noWrite, noDelete, stored, fun protects => ?_⟩
  have same := protects "f" anonymousPost nothingStored rfl noWrite noDelete
  rw [FileMap.content, same] at stored
  cases stored

end PipelineMount

end Rs2Runtime.Services
