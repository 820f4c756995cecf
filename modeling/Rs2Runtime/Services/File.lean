import Rs2Runtime.Capabilities.FileStore

/-!
Contract: the file service, over any file store.

Owns:
- moving a file, with the mapping of its destination into the mount;
- creating a server-named file, writing and deleting one;
- friendly addresses: the extension a bare name is written and deleted under;
- deleting a directory, confirmed by its name.

Does not own: how a file or a listing is served, or the table of media types.
-/

namespace Rs2Runtime.Services

open Text Data Capabilities
open Data.Outcome (require)

/-- The options of a file mount that decide what a request changes. -/
structure SiteOptions where
  friendlyUrls : Bool
  extensionPriority : List Str
  deriving DecidableEq, Repr

def SiteOptions.default : SiteOptions where
  friendlyUrls := false
  extensionPriority := []

/-- A file mount. -/
structure FileService where
  site : SiteOptions

/-- What the service takes from its surroundings: the table of canonical extensions by
essence, the next unused name, and the answers to reading requests. -/
structure FileHost (σ : Type) where
  canonicalExtension : Str → Option Str
  freshName : Str
  serve : Message → σ → Except RsError Message

/-! ## Names -/

/-- The extensions probed for a bare name, in order of preference. -/
def knownExtensions : List Str :=
  ["html", "htm", "md", "txt", "json", "xml", "yaml", "yml", "csv", "css", "js", "mjs", "jsx",
    "ts", "tsx", "svg", "png", "jpg", "jpeg", "gif", "webp", "pdf", "zip", "wasm"]

/-- An extension without leading dots, in lower case. -/
def bareExtension (extension : Str) : Str :=
  toAsciiLowercase (extension.dropWhile (· = '.'))

/-- Add an extension to those before it, once. -/
def addExtension (base : List Str) (extension : Str) : List Str :=
  if extension ∈ base then base else base ++ [extension]

/-- The extensions to probe without an `Accept` header: the configured ones, then the known
ones. -/
def negotiateExtensions (priority : List Str) : List Str :=
  knownExtensions.foldl addExtension
    (((priority.map bareExtension).filter (· ≠ [])).foldl addExtension [])

/-- The extension, with its dot, for a server-named file of a media type. -/
def extensionFor (canonicalExtension : Str → Option Str) (mediaType : MediaType) : Str :=
  let essence :=
    if mediaType.essence = "application/javascript" then ("text/javascript" : Str)
    else mediaType.essence
  match canonicalExtension (MediaType.new essence).essence with
  | some extension => '.' :: extension
  | none => []

/-- Whether the last segment of a path carries no extension. -/
def isExtensionless (path : Str) : Bool :=
  !((path.splitOn '/').getLast?.getD []).contains '.'

/-- The name of the directory at a path. -/
def dirName (path : Str) : Str :=
  ((path.rdropWhile (· = '/')).splitOn '/').getLast?.getD []

namespace FileService

/-! ## Moving -/

/-- Where a move goes, as a path of the store. -/
def moveDestination (msg : Message) : Except RsError Str := do
  let _ ← require (msg.url.isDirectory = false)
    (RsError.badRequest "MOVE source must be a file, not a directory")
  match msg.header "destination" with
  | none => .error (.badRequest "MOVE requires a 'Destination' header")
  | some raw =>
    let rel := (stripStart msg.url.basePath raw).getD raw
    let dest := if rel.head? = some '/' then rel else '/' :: rel
    let _ ← require (dest.getLast? ≠ some '/')
      (RsError.badRequest "MOVE destination must be a file path")
    return dest

section Store

variable {σ : Type} (service : FileService) (host : FileHost σ) (store : FileStore σ)

def move (msg : Message) : Effect RsError σ Message := do
  let dest ← Effect.ofExcept (moveDestination msg)
  let created ← store.rename msg.url.servicePath dest
  return (msg.response (if created then 201 else 200) none).setHeader "location"
    (msg.url.basePath ++ dest)

/-! ## Writing -/

/-- The response to a write, without the context of its body. -/
def written (msg : Message) (created : Bool) (etag : Option Str) : Message :=
  let response := (Message.request msg.method msg.url.path msg.tenant msg.traceId).response
    (if created then 201 else 200) none
  match etag with
  | some tag => response.setHeader "etag" tag
  | none => response

def requireBody (msg : Message) : Except RsError Body :=
  match msg.body with
  | some body => .ok body
  | none => .error (.badRequest "write requires a body")

theorem requireBody_eq_ok {msg : Message} {body : Body} :
    requireBody msg = .ok body ↔ msg.body = some body := by
  unfold requireBody
  split <;> simp [*]

/-- The path of a server-named file in a directory. -/
def childPath (dir : Str) (mediaType : MediaType) : Str :=
  dir ++ host.freshName ++ extensionFor host.canonicalExtension mediaType

/-- Create a server-named file in a directory. -/
def createChild (msg : Message) : Effect RsError σ Message := do
  let body ← Effect.ofExcept (requireBody msg)
  let child := childPath host msg.url.servicePath body.mediaType
  let _ ← store.write child body
  let etag ← Effect.reading (store.currentEtag child)
  let response := (Message.request msg.method msg.url.path msg.tenant msg.traceId).response 201 none
  let located := response.setHeader "location" (msg.url.basePath ++ child)
  match etag with
  | some tag => return located.setHeader "etag" tag
  | none => return located

/-- The path a write goes to: a bare name is pinned to the first configured extension. -/
def storePath (path : Str) : Except RsError Str :=
  if service.site.friendlyUrls ∧ isExtensionless path then
    match service.site.extensionPriority with
    | [] => .error (.badRequest "extension-less write requires a configured 'extensionPriority'")
    | first :: _ => .ok (path ++ '.' :: bareExtension first)
  else
    .ok path

/-- Write a file. -/
def upsert (msg : Message) : Effect RsError σ Message := do
  let _ ← Effect.ofExcept (require (msg.url.isDirectory = false)
    (RsError.badRequest "cannot PUT to a directory path"))
  let body ← Effect.ofExcept (requireBody msg)
  let path ← Effect.ofExcept (service.storePath msg.url.servicePath)
  let outcome ← store.writeCond path body (writePrecondition msg)
  let response := written msg outcome.created outcome.etag
  if path = msg.url.servicePath then
    return response
  else
    return (response.setHeader "location" (msg.url.basePath ++ msg.url.servicePath)).setHeader
      "content-location" (msg.url.basePath ++ path)

/-! ## Deleting -/

/-- The first stored file among the candidates for a bare name. -/
def probe (path : Str) : List Str → σ → Except RsError (Option Str)
  | [], _ => .ok none
  | extension :: rest, state =>
    match store.head (path ++ '.' :: extension) state with
    | .ok found =>
      if found.isDir then probe path rest state else .ok (some (path ++ '.' :: extension))
    | .error e => if e.code = .notFound then probe path rest state else .error e

/-- The stored file a bare name stands for. -/
def resolveFriendly (path : Str) (state : σ) : Except RsError (Option Str) :=
  probe store path (negotiateExtensions service.site.extensionPriority) state

/-- Delete a directory; one with content only when its name confirms it. -/
def removeDirectory (msg : Message) : Effect RsError σ Unit := do
  let _ ← Effect.ofExcept (require (writePrecondition msg = .none)
    (RsError.badRequest "conditional headers are not supported on directory deletes"))
  let name := dirName msg.url.servicePath
  if msg.url.queryParam "confirm" = some name ∧ name ≠ [] then
    store.deleteDirAll msg.url.servicePath
  else
    store.deleteDir msg.url.servicePath

/-- Delete a file; a bare name that is not stored stands for the file it is served by. -/
def removeFile (msg : Message) : Effect RsError σ Unit := do
  let path := msg.url.servicePath
  match ← Effect.attempt (store.deleteCond path (writePrecondition msg)) with
  | .ok () => return ()
  | .error e =>
    if e.code = .notFound ∧ service.site.friendlyUrls ∧ isExtensionless path then
      match ← Effect.reading (service.resolveFriendly store path) with
      | some real => store.deleteCond real (writePrecondition msg)
      | none => Effect.fail e
    else
      Effect.fail e

def removeTarget (msg : Message) : Effect RsError σ Unit :=
  if msg.url.isDirectory then removeDirectory store msg else service.removeFile store msg

def remove (msg : Message) : Effect RsError σ Message := do
  let _ ← service.removeTarget store msg
  return msg.noContent

/-! ## Requests -/

def methodNotAllowed (msg : Message) : RsError :=
  .new 405 .badRequest "Method Not Allowed"
    (("file service does not support " : Str) ++ msg.method.name)

/-- Handle one request. -/
def handle (msg : Message) : Effect RsError σ Message :=
  if msg.method.name = "MOVE" then
    move store msg
  else
    match msg.method with
    | .get | .head => Effect.reading (host.serve msg)
    | .post => if msg.url.isDirectory then createChild host store msg else service.upsert store msg
    | .put => service.upsert store msg
    | .delete => service.remove store msg
    | _ => Effect.fail (methodNotAllowed msg)

end Store

/-- The request asks for a directory to be deleted with everything below it, and confirms it
by the directory's name. -/
structure ConfirmedDelete (msg : Message) : Prop where
  method : msg.method = .delete
  directory : msg.url.isDirectory = true
  unconditional : writePrecondition msg = .none
  confirmed : msg.url.queryParam "confirm" = some (dirName msg.url.servicePath)
  named : dirName msg.url.servicePath ≠ []

section Requests

variable {σ : Type} {service : FileService} {host : FileHost σ} {store : FileStore σ}

/-- A confirmed delete does what the store's recursive delete does. -/
theorem handle_of_confirmedDelete {msg : Message} (confirmed : ConfirmedDelete msg) (state : σ) :
    (service.handle host store msg state).2 =
      (store.deleteDirAll msg.url.servicePath state).2 := by
  have notMove : msg.method.name ≠ "MOVE" := by
    rw [confirmed.method]
    decide
  have unchecked : require (writePrecondition msg = .none)
      (RsError.badRequest "conditional headers are not supported on directory deletes") =
        .ok () :=
    Outcome.require_eq_ok.mpr confirmed.unconditional
  rw [handle, if_neg notMove, confirmed.method]
  dsimp only
  rw [remove, Effect.bind_pure_run, removeTarget, if_pos confirmed.directory, removeDirectory,
    unchecked, Effect.bind_of_ok (Effect.ofExcept_run _ _), if_pos ⟨confirmed.confirmed, confirmed.named⟩]

/-! What a request leaves the store in, whatever its outcome. -/

theorem move_state (store : FileStore σ) (msg : Message) (state : σ) :
    (move store msg state).2 = state ∨
      ∃ dest, moveDestination msg = .ok dest ∧
        (move store msg state).2 = (store.rename msg.url.servicePath dest state).2 := by
  rcases Effect.ofExcept_bind_cases (moveDestination msg) _ state with
    stayed | ⟨dest, mapped, went⟩
  · exact .inl stayed
  · refine .inr ⟨dest, mapped, (congrArg Prod.snd went).trans ?_⟩
    exact Effect.bind_state_of_still (fun _ _ => rfl) state

theorem createChild_state (host : FileHost σ) (store : FileStore σ) (msg : Message) (state : σ) :
    (createChild host store msg state).2 = state ∨
      ∃ body, msg.body = some body ∧ (createChild host store msg state).2 =
        (store.write (childPath host msg.url.servicePath body.mediaType) body state).2 := by
  rcases Effect.ofExcept_bind_cases (requireBody msg) _ state with stayed | ⟨body, given, went⟩
  · exact .inl stayed
  · refine .inr ⟨body, requireBody_eq_ok.mp given, (congrArg Prod.snd went).trans ?_⟩
    refine Effect.bind_state_of_still (fun _ after => ?_) state
    refine Effect.bind_state_of_still (fun etag last => ?_) after
    cases etag <;> rfl

theorem upsert_state (service : FileService) (store : FileStore σ) (msg : Message) (state : σ) :
    (service.upsert store msg state).2 = state ∨
      ∃ body path, msg.url.isDirectory = false ∧ msg.body = some body ∧
        service.storePath msg.url.servicePath = .ok path ∧
        (service.upsert store msg state).2 = (store.write path body state).2 := by
  rcases Effect.ofExcept_bind_cases (require (msg.url.isDirectory = false)
    (RsError.badRequest "cannot PUT to a directory path")) _ state with stayed | ⟨_, file, went⟩
  · exact .inl stayed
  rcases Effect.ofExcept_bind_cases (requireBody msg) _ state with stayed | ⟨body, given, wrote⟩
  · exact .inl ((congrArg Prod.snd went).trans stayed)
  rcases Effect.ofExcept_bind_cases (service.storePath msg.url.servicePath) _ state with
    stayed | ⟨path, stored, finished⟩
  · exact .inl ((congrArg Prod.snd (went.trans wrote)).trans stayed)
  have ran : (service.upsert store msg state).2 =
      (store.writeCond path body (writePrecondition msg) state).2 := by
    refine (congrArg Prod.snd (went.trans (wrote.trans finished))).trans ?_
    refine Effect.bind_state_of_still (fun outcome after => ?_) state
    split <;> rfl
  rcases store.writeCond_state path body (writePrecondition msg) state with stayed | written_
  · exact .inl (ran.trans stayed)
  · exact .inr ⟨body, path, Outcome.require_eq_ok.mp file, requireBody_eq_ok.mp given, stored,
      ran.trans written_⟩

theorem removeFile_state (store : FileStore σ) (plain : service.site.friendlyUrls = false)
    (msg : Message) (state : σ) :
    (service.removeFile store msg state).2 = state ∨
      (service.removeFile store msg state).2 = (store.delete msg.url.servicePath state).2 := by
  have ran : (service.removeFile store msg state).2 =
      (store.deleteCond msg.url.servicePath (writePrecondition msg) state).2 := by
    refine Effect.bind_state_of_still (fun outcome after => ?_) state
    cases outcome with
    | ok done => rfl
    | error e =>
      dsimp only
      rw [if_neg (by simp [plain])]
      rfl
  rw [ran]
  exact store.deleteCond_state msg.url.servicePath (writePrecondition msg) state

theorem removeDirectory_state (store : FileStore σ) (msg : Message) (state : σ) :
    (removeDirectory store msg state).2 = state ∨
      (removeDirectory store msg state).2 = (store.deleteDirAll msg.url.servicePath state).2 ∨
      (removeDirectory store msg state).2 = (store.deleteDir msg.url.servicePath state).2 := by
  rcases Effect.ofExcept_bind_cases (require (writePrecondition msg = .none)
    (RsError.badRequest "conditional headers are not supported on directory deletes")) _ state with
      stayed | ⟨_, -, went⟩
  · exact .inl stayed
  · refine .inr ?_
    rw [removeDirectory, went]
    split
    · exact .inl rfl
    · exact .inr rfl

variable {rel : σ → σ → Prop} [IsPreorder σ rel]

theorem createChild_keeps (kept : store.Keeps rel) (msg : Message) :
    Effect.Keeps rel (createChild host store msg) := by
  refine Effect.keeps_bind (Effect.keeps_ofExcept _) fun body =>
    Effect.keeps_bind (kept.write _ _) fun _ =>
      Effect.keeps_bind (Effect.keeps_reading _) fun etag => ?_
  cases etag <;> exact Effect.keeps_pure _

theorem upsert_keeps (kept : store.Keeps rel) (msg : Message) :
    Effect.Keeps rel (service.upsert store msg) := by
  refine Effect.keeps_bind (Effect.keeps_ofExcept _) fun _ =>
    Effect.keeps_bind (Effect.keeps_ofExcept _) fun body =>
      Effect.keeps_bind (Effect.keeps_ofExcept _) fun path =>
        Effect.keeps_bind (kept.writeCond path body _) fun outcome => ?_
  dsimp only
  split <;> exact Effect.keeps_pure _

theorem removeFile_keeps (kept : store.Keeps rel) (msg : Message) :
    Effect.Keeps rel (service.removeFile store msg) := by
  refine Effect.keeps_bind (Effect.keeps_attempt (kept.deleteCond _ _)) fun outcome => ?_
  cases outcome with
  | ok done => exact Effect.keeps_pure _
  | error e =>
    dsimp only
    split
    · refine Effect.keeps_bind (Effect.keeps_reading _) fun found => ?_
      cases found with
      | none => exact Effect.keeps_fail e
      | some real => exact kept.deleteCond real _
    · exact Effect.keeps_fail e

/-- Every other request keeps what the store's other operations keep. -/
theorem handle_keeps {msg : Message} (kept : store.Keeps rel)
    (unconfirmed : ¬ ConfirmedDelete msg) : Effect.Keeps rel (service.handle host store msg) := by
  rw [handle]
  split
  · exact Effect.keeps_bind (Effect.keeps_ofExcept _) fun _ =>
      Effect.keeps_bind (kept.rename _ _) fun _ => Effect.keeps_pure _
  · cases method : msg.method with
    | get | head => exact Effect.keeps_reading _
    | put => exact upsert_keeps kept msg
    | post =>
      dsimp only
      split
      · exact createChild_keeps kept msg
      · exact upsert_keeps kept msg
    | delete =>
      refine Effect.keeps_bind ?_ fun _ => Effect.keeps_pure _
      cases directory : msg.url.isDirectory with
      | false =>
        rw [removeTarget, directory]
        exact removeFile_keeps kept msg
      | true =>
        rw [removeTarget, directory]
        rw [if_pos rfl, removeDirectory]
        by_cases plain : writePrecondition msg = .none
        · refine Effect.keeps_bind (Effect.keeps_ofExcept _) fun _ => ?_
          rw [if_neg fun asked => unconfirmed ⟨method, directory, plain, asked.1, asked.2⟩]
          exact kept.deleteDir _
        · intro state
          rw [Effect.bind_of_error (by rw [Effect.ofExcept_run, require, if_neg plain])]
          exact refl state
    | patch | options | connect | trace | extension token => exact Effect.keeps_fail _

end Requests

/-- A request of tenant t to a mount at /files. -/
def requestTo (method : Method) (pathAndQuery : Str) (headers : HeaderMap) : Message :=
  let msg := Message.request method (("/files" : Str) ++ pathAndQuery) "t" "trace"
  { msg with
    url := msg.url.applyMount "/files"
    headers := headers }

/-- Surroundings that serve nothing and know no extensions. -/
def plainHost (σ : Type) : FileHost σ where
  canonicalExtension := fun _ => none
  freshName := "fresh"
  serve := fun _ _ => .error (.notFound "nothing served")

end FileService

end Rs2Runtime.Services
