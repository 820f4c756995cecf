import Rs2Runtime.Data.Machine
import Rs2Runtime.Services.SpecStore

/-!
Contract: authority over the `access` of stored documents, along every run of requests.

Owns:
- what the private file service does to the files, request by request;
- runs of authoring requests by callers who are no operators;
- when every such run keeps the `access` of every document and stores only what the validator
  returned.

Does not own: requests by operators.
-/

namespace Rs2Runtime.Services.SpecStore

open Text Data Json Capabilities Wrapper

/-! ## What the file service does -/

/-- What a request does to the files: it takes some away, moves one, or stores a body as a new
file of a directory or at its path. -/
inductive FileStep (host : FileHost FileMap) (msg : Message) (map : FileMap) : FileMap → Prop where
  | removes {after : FileMap} (removed : FileMap.Removes map after) : FileStep host msg map after
  | moves {dest : Str} {octets : Octets} (move : msg.method.name = "MOVE")
      (mapped : FileService.moveDestination msg = .ok dest)
      (found : map.content msg.url.servicePath = some octets) :
      FileStep host msg map
        ((map.remove (segments msg.url.servicePath)).put (segments dest) octets)
  | creates {body : Body} {octets : Octets} (post : msg.method = .post)
      (directory : msg.url.isDirectory = true) (given : msg.body = some body)
      (streamed : body.streamed = .ok octets) :
      FileStep host msg map
        (map.put (segments (FileService.childPath host msg.url.servicePath body.mediaType)) octets)
  | stores {body : Body} {octets : Octets} (write : msg.method = .put ∨ msg.method = .post)
      (file : msg.url.isDirectory = false) (given : msg.body = some body)
      (streamed : body.streamed = .ok octets) :
      FileStep host msg map (map.put (segments msg.url.servicePath) octets)

variable {msg prepared : Message} {map after : FileMap} {path : Str} {octets : Octets} {doc : Value}

theorem fileStep_upsert {host : FileHost FileMap} {version : Octets → Str}
    (write : msg.method = .put ∨ msg.method = .post) (map : FileMap) :
    FileStep host msg map (files.upsert (FileMap.store version) msg map).2 := by
  have plain : ∀ path, files.storePath path = .ok path := fun _ => rfl
  rcases FileService.upsert_state files (FileMap.store version) msg map with
    stayed | ⟨body, path, file, given, stored, ran⟩
  · rw [stayed]
    exact .removes (FileMap.removes_refl map)
  · rw [plain] at stored
    cases stored
    rw [ran]
    rcases FileMap.write_state msg.url.servicePath body map with stayed | ⟨octets, streamed, wrote⟩
    · exact .removes (by rw [FileMap.store, stayed]; exact FileMap.removes_refl map)
    · change FileStep host msg map (FileMap.write msg.url.servicePath body map).2
      rw [wrote]
      exact .stores write file given streamed

/-- Every request does one of the steps. -/
theorem fileStep_handle (host : FileHost FileMap) (version : Octets → Str) (msg : Message)
    (map : FileMap) :
    FileStep host msg map (files.handle host (FileMap.store version) msg map).2 := by
  rw [FileService.handle]
  split
  case isTrue move =>
    rcases FileService.move_state (FileMap.store version) msg map with
      stayed | ⟨dest, mapped, ran⟩
    · rw [stayed]
      exact .removes (FileMap.removes_refl map)
    · rw [ran]
      change FileStep host msg map (FileMap.rename msg.url.servicePath dest map).2
      rcases FileMap.rename_state msg.url.servicePath dest map with stayed | ⟨octets, found, moved⟩
      · rw [stayed]
        exact .removes (FileMap.removes_refl map)
      · rw [moved]
        exact .moves move mapped found
  case isFalse =>
    cases method : msg.method with
    | get | head => exact .removes (FileMap.removes_refl map)
    | put => exact fileStep_upsert (.inl method) map
    | post =>
      dsimp only
      split
      case isFalse => exact fileStep_upsert (.inr method) map
      case isTrue directory =>
        rcases FileService.createChild_state host (FileMap.store version) msg map with stayed | ⟨body, given, ran⟩
        · rw [stayed]
          exact .removes (FileMap.removes_refl map)
        · rw [ran]
          change FileStep host msg map (FileMap.write _ body map).2
          rcases FileMap.write_state
            (FileService.childPath host msg.url.servicePath body.mediaType) body map with
              stayed | ⟨octets, streamed, wrote⟩
          · rw [stayed]
            exact .removes (FileMap.removes_refl map)
          · rw [wrote]
            exact .creates method directory given streamed
    | delete =>
      dsimp only
      rw [FileService.remove, Effect.bind_pure_run, FileService.removeTarget]
      refine .removes ?_
      split
      · rcases FileService.removeDirectory_state (FileMap.store version) msg map with
          stayed | ran | ran
        · rw [stayed]
          exact FileMap.removes_refl map
        · rw [ran]
          exact FileMap.removes_deleteDirAll _ map
        · rw [ran]
          exact FileMap.removes_deleteDir _ map
      · have plain : files.site.friendlyUrls = false := rfl
        rcases FileService.removeFile_state (FileMap.store version) plain msg map with
          stayed | ran
        · rw [stayed]
          exact FileMap.removes_refl map
        · rw [ran]
          exact FileMap.removes_delete _ map
    | patch | options | connect | trace | extension token =>
      exact .removes (FileMap.removes_refl map)

/-! ## Documents -/

variable {store : SpecStore}

/-- The document that is read at a path. -/
def specAt (store : SpecStore) (map : FileMap) (path : Str) : Option Value :=
  match store.lookup map path with
  | .ok entry => entry
  | .error _ => none

variable {state : store.State}

theorem specAt_of_lookup {entry : Option Value} (looked : store.lookup map path = .ok entry) :
    specAt store map path = entry := by
  rw [specAt, looked]

theorem specAt_of_lookup_error {e : RsError} (looked : store.lookup map path = .error e) :
    specAt store map path = none := by
  rw [specAt, looked]

theorem specAt_of_content (found : map.content path = some octets) :
    specAt store map path = (store.decode octets).toOption := by
  have looked : store.lookup map path = (store.decode octets).map some := by
    rw [lookup, found]
  cases decoded : store.decode octets with
  | error e => exact specAt_of_lookup_error (looked.trans (by rw [decoded]; rfl))
  | ok doc => exact specAt_of_lookup (looked.trans (by rw [decoded]; rfl))

theorem specAt_of_absent (absent : map.content path = none) : specAt store map path = none := by
  rw [specAt, lookup, absent]

theorem specAt_congr {map' : FileMap} {path' : Str} (same : map'.content path' = map.content path) :
    specAt store map' path' = specAt store map path := by
  rw [specAt, specAt, lookup, lookup, same]

/-- What is printed is read back, unless it is too large to be read. -/
theorem eq_of_decode_encode {read : Value} (wellFormed : doc.WellFormed)
    (decoded : store.decode (store.codec.encode doc) = .ok read) : read = doc := by
  unfold decode at decoded
  split at decoded
  · cases decoded
  · rw [store.codec.parse_encode wellFormed] at decoded
    cases decoded
    rfl

/-- The cache answers as the files do. -/
theorem read_toOption (path : Str) (state : store.State) :
    (read path state).1.toOption = specAt store state.map path := by
  rw [read, (readThrough_answer state.fresh path).1, specAt]
  cases store.lookup state.map path with
  | error e => rfl
  | ok found => cases found <;> rfl

theorem map_read (path : Str) (state : store.State) : (read path state).2.map = state.map := rfl

/-- A write that a caller who is no operator gets past the gate: its body is what the validator
returned for a document with the `access` that is stored. -/
structure AdmittedWrite (store : SpecStore) (map : FileMap) (msg prepared : Message) : Prop where
  write : isWrite msg = true
  admitted : ∃ doc stored, doc.WellFormed ∧ store.validator.validate doc = .ok stored ∧
    accessOf (some doc) = accessOf (specAt store map msg.url.servicePath) ∧
    prepared = { msg with body := some (Body.fromString (store.codec.print stored) .json) }

/-- Only the cache may differ. -/
def SameFiles (before after : store.State) : Prop :=
  after.map = before.map

instance : IsPreorder store.State SameFiles where
  refl _ := rfl
  trans _ _ _ first second := Eq.trans second first

theorem prepare_keeps (msg : Message) : Effect.Keeps SameFiles (store.prepare msg) := by
  unfold prepare
  split
  · exact Effect.keeps_bind (Effect.keeps_ofExcept _) fun _ =>
      Effect.keeps_bind (Effect.keeps_attempt (map_read _)) fun _ =>
        Effect.keeps_bind (Effect.keeps_ofExcept _) fun _ =>
          Effect.keeps_bind (Effect.keeps_ofExcept _) fun _ => Effect.keeps_pure _
  · exact Effect.keeps_pure _

theorem bodyDoc_wellFormed (read : store.bodyDoc msg = .ok doc) : doc.WellFormed := by
  unfold bodyDoc at read
  split at read
  · obtain ⟨parsed, parses, rfl⟩ := Outcome.map_eq_ok.mp read
    exact Body.wellFormed_of_asJson parses
  · cases read

theorem prepare_eq_ok {after : store.State}
    (byAuthor : isOperator msg.principal store.operatorRoles = false)
    (done : store.prepare msg state = (.ok prepared, after)) :
    isWrite msg = false ∧ prepared = msg ∨ AdmittedWrite store state.map msg prepared := by
  unfold prepare at done
  split at done
  case isFalse plain =>
    obtain ⟨rfl, -⟩ := Effect.pure_eq_ok.mp done
    exact .inl ⟨by simpa using plain, rfl⟩
  case isTrue write =>
    obtain ⟨doc, parsed, rest⟩ := Effect.ofExcept_bind_eq_ok.mp done
    rw [Effect.bind_of_ok (Effect.attempt_run _ _)] at rest
    obtain ⟨_, passed, validated⟩ := Effect.ofExcept_bind_eq_ok.mp rest
    obtain ⟨stored, valid, finished⟩ := Effect.ofExcept_bind_eq_ok.mp validated
    obtain ⟨rfl, -⟩ := Effect.pure_eq_ok.mp finished
    have authority := Outcome.require_eq_ok.mp passed
    rw [byAuthor, read_toOption] at authority
    exact .inr ⟨write, doc, stored, bodyDoc_wellFormed parsed, valid,
      authority.resolve_right (by decide), rfl⟩

/-- An authoring request leaves the files, or does with them what the file service does with
the prepared request. -/
theorem map_handleAuthoring (byAuthor : isOperator msg.principal store.operatorRoles = false)
    (freshName : Str) (state : store.State) :
    (store.handleAuthoring freshName msg state).2.map = state.map ∨
      ∃ prepared, (isWrite (store.inner msg) = false ∧ prepared = store.inner msg ∨
          AdmittedWrite store state.map (store.inner msg) prepared) ∧
        FileStep (store.host freshName) prepared state.map
          (store.handleAuthoring freshName msg state).2.map := by
  rcases ran : store.prepare (store.inner msg) state with ⟨e | prepared, between⟩
  all_goals
    have same : between.map = state.map := by
      have kept := prepare_keeps (store.inner msg) state
      rwa [ran] at kept
  · rw [handleAuthoring, Effect.bind_of_error ran]
    exact .inl same
  · refine .inr ⟨prepared, prepare_eq_ok byAuthor ran, ?_⟩
    have delegated : (store.handleAuthoring freshName msg state).2 =
        (store.delegate freshName prepared between).2 := by
      rw [handleAuthoring, Effect.bind_of_ok ran]
      exact Effect.bind_state_of_still (fun _ _ => rfl) between
    rw [delegated, delegate]
    split
    · rw [same]
      exact .removes (FileMap.removes_refl _)
    · rw [← same]
      exact fileStep_handle (store.host freshName) store.version prepared between.map

/-! ## Runs -/

/-- An authoring request by a caller who is no operator, with the name drawn for it. -/
structure Request (store : SpecStore) where
  msg : Message
  freshName : Str
  authoring : store.isAuthoring msg = true
  byAuthor : isOperator msg.principal store.operatorRoles = false

/-- The file that a post to the request's directory creates. -/
def Request.child (request : store.Request) : Str :=
  FileService.childPath (store.host request.freshName)
    (store.inner request.msg).url.servicePath .json

/-- One request; names that are drawn are not in use. -/
def step (state : store.State) (request : store.Request) : Option store.State :=
  if state.map.content request.child = none then
    some (store.handleAuthoring request.freshName request.msg state).2
  else
    none

/-- Every document that is there afterwards has the `access` of the one that was there before,
or none where there was none. -/
def KeepsAccess (store : SpecStore) (before after : FileMap) : Prop :=
  ∀ path doc, specAt store after path = some doc →
    accessOf (some doc) = accessOf (specAt store before path)

/-- Octets that the validator's output is stored as. -/
def Validated (store : SpecStore) (octets : Octets) : Prop :=
  ∃ doc stored, store.validator.validate doc = .ok stored ∧ octets = store.codec.encode stored

/-- Every file that is there afterwards has the content of one that was there before, or one
that the validator returned. -/
def StoresValidated (store : SpecStore) (before after : FileMap) : Prop :=
  ∀ key octets, after.files.get? key = some octets →
    (∃ other, before.files.get? other = some octets) ∨ Validated store octets

/-- What a request has to keep to, in the files it meets: a post to a document's path carries
what the validator would return, with the `access` that is stored; a move carries a document
to where the same `access` is stored; and no document with an `access` is stored under the
name of a directory that is posted to. -/
structure Careful (map : FileMap) (request : store.Request) : Prop where
  post : (store.inner request.msg).method = .post →
    (store.inner request.msg).url.isDirectory = false →
    ∀ body octets, request.msg.body = some body → body.streamed = .ok octets →
      Validated store octets ∧ ∀ doc, store.decode octets = .ok doc →
        accessOf (some doc) =
          accessOf (specAt store map (store.inner request.msg).url.servicePath)
  move : (store.inner request.msg).method.name = "MOVE" →
    ∀ dest, FileService.moveDestination (store.inner request.msg) = .ok dest →
      ∀ doc, specAt store map (store.inner request.msg).url.servicePath = some doc →
        accessOf (some doc) = accessOf (specAt store map dest)
  directory : (store.inner request.msg).method = .post →
    (store.inner request.msg).url.isDirectory = true →
      accessOf (specAt store map (store.inner request.msg).url.servicePath) = none

/-! ## Steps -/

variable {request : store.Request}

/-- Files at one path replaced, and any others taken away. -/
theorem keepsAccess_of_content
    (each : ∀ other, after.content other = none ∨ after.content other = map.content other ∨
      segments other = segments path ∧ after.content other = some octets)
    (access : ∀ doc, store.decode octets = .ok doc →
      accessOf (some doc) = accessOf (specAt store map path)) :
    KeepsAccess store map after := by
  intro other doc found
  rcases each other with absent | same | ⟨here, replaced⟩
  · rw [specAt_of_absent absent] at found
    cases found
  · rw [← found, specAt_congr same]
  · have before : specAt store map other = specAt store map path :=
      specAt_congr (by rw [FileMap.content, FileMap.content, here])
    rw [specAt_of_content replaced] at found
    rw [before]
    refine access doc ?_
    cases decoded : store.decode octets with
    | error e =>
      rw [decoded] at found
      cases found
    | ok read =>
      rw [decoded] at found
      cases found
      rfl

theorem keepsAccess_of_removes (removed : FileMap.Removes map after) :
    KeepsAccess store map after := by
  intro other doc found
  rcases removed (segments other) with absent | same
  · rw [specAt_of_absent absent] at found
    cases found
  · rw [← found, specAt_congr same]

theorem storesValidated_of_removes (removed : FileMap.Removes map after) :
    StoresValidated store map after := by
  intro key octets found
  rcases removed key with absent | same
  · rw [absent] at found
    cases found
  · exact .inl ⟨key, by rw [← same, found]⟩

theorem storesValidated_of_put {stored : FileKey} (valid : Validated store octets) :
    StoresValidated store map (map.put stored octets) := by
  intro key content found
  rw [FileMap.get?_put] at found
  split at found
  · cases found
    exact .inr valid
  · exact .inl ⟨key, found⟩

theorem content_put_cases (map : FileMap) (path : Str) (octets : Octets) (other : Str) :
    (map.put (segments path) octets).content other = none ∨
      (map.put (segments path) octets).content other = map.content other ∨
      segments other = segments path ∧
        (map.put (segments path) octets).content other = some octets := by
  rw [FileMap.content, FileMap.get?_put]
  by_cases here : segments other = segments path
  · exact .inr (.inr ⟨here, by rw [if_pos here]⟩)
  · exact .inr (.inl (by rw [if_neg here]; rfl))

/-- What an admitted write stores has the `access` that is stored at the request's path. -/
theorem AdmittedWrite.stored (admitted : AdmittedWrite store map msg prepared) :
    prepared.method = msg.method ∧ prepared.url = msg.url ∧
      ∀ body octets, prepared.body = some body → body.streamed = .ok octets →
        body.mediaType = .json ∧ Validated store octets ∧
        ∀ doc, store.decode octets = .ok doc →
          accessOf (some doc) = accessOf (specAt store map msg.url.servicePath) := by
  obtain ⟨doc, stored, wellFormed, valid, access, rfl⟩ := admitted.admitted
  refine ⟨rfl, rfl, ?_⟩
  intro body octets given streamed
  cases given
  cases streamed
  refine ⟨rfl, ⟨doc, stored, valid, rfl⟩, fun read decoded => ?_⟩
  have same : read = stored :=
    eq_of_decode_encode (store.validator.wellFormed doc stored wellFormed valid) decoded
  rw [same, ← access]
  exact store.validator.keepsAccess doc stored valid

theorem AdmittedWrite.method (admitted : AdmittedWrite store map msg prepared) :
    msg.method = .put ∨ msg.method = .post ∧ msg.url.isDirectory = true := by
  have write := admitted.write
  rw [isWrite, Bool.or_eq_true, Bool.and_eq_true, decide_eq_true_eq, decide_eq_true_eq] at write
  exact write

/-- How a request reached the file service: as it is, or as an admitted write. -/
def Prepared (store : SpecStore) (map : FileMap) (msg prepared : Message) : Prop :=
  isWrite msg = false ∧ prepared = msg ∨ AdmittedWrite store map msg prepared

theorem moves_keep {dest : Str} (careful : Careful map request)
    (origin : Prepared store map (store.inner request.msg) prepared)
    (move : prepared.method.name = "MOVE")
    (mapped : FileService.moveDestination prepared = .ok dest)
    (found : map.content prepared.url.servicePath = some octets) (moved : after =
      (map.remove (segments prepared.url.servicePath)).put (segments dest) octets) :
    KeepsAccess store map after ∧ StoresValidated store map after := by
  have whole : prepared = store.inner request.msg := by
    rcases origin with ⟨-, same⟩ | admitted
    · exact same
    · rw [admitted.stored.1] at move
      rcases admitted.method with put | ⟨post, -⟩
      · rw [put] at move
        exact absurd move (by decide)
      · rw [post] at move
        exact absurd move (by decide)
  have removed := FileMap.removes_remove map (segments prepared.url.servicePath)
  constructor
  · have each : ∀ other, after.content other = none ∨ after.content other = map.content other ∨
        segments other = segments dest ∧ after.content other = some octets := by
      intro other
      rcases content_put_cases (map.remove (segments prepared.url.servicePath)) dest octets other
        with absent | same | here
      · exact .inl (moved ▸ absent)
      · rcases removed (segments other) with gone | kept
        · exact .inl (moved ▸ same.trans gone)
        · exact .inr (.inl (moved ▸ same.trans kept))
      · exact .inr (.inr (moved ▸ here))
    refine keepsAccess_of_content each fun doc decoded => ?_
    subst whole
    refine careful.move move dest mapped doc ?_
    rw [specAt_of_content found, decoded]
    rfl
  · intro key content stored
    rw [moved, FileMap.get?_put] at stored
    split at stored
    · cases stored
      exact .inl ⟨segments prepared.url.servicePath, found⟩
    · rcases removed key with gone | kept
      · rw [gone] at stored
        cases stored
      · exact .inl ⟨key, by rw [← kept, stored]⟩

theorem creates_keep {body : Body} (careful : Careful map request)
    (unused : map.content request.child = none)
    (origin : Prepared store map (store.inner request.msg) prepared)
    (post : prepared.method = .post) (directory : prepared.url.isDirectory = true)
    (given : prepared.body = some body) (streamed : body.streamed = .ok octets) :
    KeepsAccess store map (map.put (segments (FileService.childPath
        (store.host request.freshName) prepared.url.servicePath body.mediaType)) octets) ∧
      StoresValidated store map (map.put (segments (FileService.childPath
        (store.host request.freshName) prepared.url.servicePath body.mediaType)) octets) := by
  have admitted : AdmittedWrite store map (store.inner request.msg) prepared := by
    rcases origin with ⟨notWrite, rfl⟩ | admitted
    · rw [isWrite, post, directory] at notWrite
      cases notWrite
    · exact admitted
  obtain ⟨sameMethod, sameUrl, stored⟩ := admitted.stored
  obtain ⟨json, valid, access⟩ := stored body octets given streamed
  rw [sameMethod] at post
  rw [sameUrl] at directory
  have child : FileService.childPath (store.host request.freshName) prepared.url.servicePath
      body.mediaType = request.child := by
    rw [json, sameUrl, Request.child]
  rw [child]
  refine ⟨keepsAccess_of_content (content_put_cases map request.child octets) ?_,
    storesValidated_of_put valid⟩
  intro doc decoded
  rw [access doc decoded, careful.directory post directory, specAt_of_absent unused]
  rfl

theorem stores_keep {body : Body} (careful : Careful map request)
    (origin : Prepared store map (store.inner request.msg) prepared)
    (write : prepared.method = .put ∨ prepared.method = .post)
    (file : prepared.url.isDirectory = false) (given : prepared.body = some body)
    (streamed : body.streamed = .ok octets) :
    KeepsAccess store map (map.put (segments prepared.url.servicePath) octets) ∧
      StoresValidated store map (map.put (segments prepared.url.servicePath) octets) := by
  have facts : Validated store octets ∧ ∀ doc, store.decode octets = .ok doc →
      accessOf (some doc) = accessOf (specAt store map prepared.url.servicePath) := by
    rcases origin with ⟨notWrite, rfl⟩ | admitted
    · -- A write that the gate does not see is a post to a document's path.
      rcases write with put | post
      · rw [isWrite, put] at notWrite
        cases notWrite
      · exact careful.post post file body octets given streamed
    · obtain ⟨-, sameUrl, stored⟩ := admitted.stored
      rw [sameUrl]
      exact (stored body octets given streamed).2
  exact ⟨keepsAccess_of_content (content_put_cases map prepared.url.servicePath octets) facts.2,
    storesValidated_of_put facts.1⟩

/-- A careful request keeps the `access` of every document and stores what is validated. -/
theorem step_keeps {next : store.State} (careful : Careful state.map request)
    (stepped : step state request = some next) :
    KeepsAccess store state.map next.map ∧ StoresValidated store state.map next.map := by
  unfold step at stepped
  split at stepped
  case isFalse => cases stepped
  case isTrue unused =>
    obtain rfl := Option.some.inj stepped
    rcases map_handleAuthoring request.byAuthor request.freshName state with
      same | ⟨prepared, origin, fileStep⟩
    · rw [same]
      exact ⟨keepsAccess_of_removes (FileMap.removes_refl _),
        storesValidated_of_removes (FileMap.removes_refl _)⟩
    · generalize (store.handleAuthoring request.freshName request.msg state).2.map = after
        at fileStep
      cases fileStep with
      | removes removed =>
        exact ⟨keepsAccess_of_removes removed, storesValidated_of_removes removed⟩
      | moves move mapped found => exact moves_keep careful origin move mapped found rfl
      | creates post directory given streamed =>
        exact creates_keep careful unused origin post directory given streamed
      | stores write file given streamed =>
        exact stores_keep careful origin write file given streamed

/-- Compared with the first state: every document has no `access` or the one that was stored
there, and every file is one of the first or what the validator returned. -/
structure KeptSince (store : SpecStore) (initial current : FileMap) : Prop where
  access : ∀ path doc, specAt store current path = some doc →
    accessOf (some doc) = none ∨ accessOf (some doc) = accessOf (specAt store initial path)
  documents : StoresValidated store initial current

theorem KeptSince.step {initial before : FileMap} (kept : KeptSince store initial before)
    (access : KeepsAccess store before after) (documents : StoresValidated store before after) :
    KeptSince store initial after where
  access := by
    intro path doc found
    rw [access path doc found]
    cases previous : specAt store before path with
    | none => exact .inl rfl
    | some old => exact kept.access path old previous
  documents := by
    intro key octets found
    rcases documents key octets found with ⟨other, present⟩ | valid
    · exact kept.documents other octets present
    · exact .inr valid

/-- In every run of careful requests by callers who are no operators, no `access` is set, changed
or removed, and everything stored is validated. -/
theorem authoring_keeps_authority (store : SpecStore) (initial final : store.State)
    (requests : List store.Request)
    (careful : Machine.AllMeet step (fun state request => Careful state.map request)
      initial requests)
    (ran : Machine.run step initial requests = some final) :
    KeptSince store initial.map final.map ∧
      Machine.AllMeet step (fun state request => ∀ next, step state request = some next →
        KeepsAccess store state.map next.map) initial requests := by
  have preserved : ∀ (state : store.State) (request : store.Request) (next : store.State),
      KeptSince store initial.map state.map → Careful state.map request →
        step state request = some next → KeptSince store initial.map next.map := by
    intro state request next kept met stepped
    obtain ⟨access, documents⟩ := step_keeps met stepped
    exact kept.step access documents
  have initially : KeptSince store initial.map initial.map :=
    ⟨fun path doc found => .inr (by rw [found]), fun key octets found => .inl ⟨key, found⟩⟩
  constructor
  · exact Machine.run_invariant preserved initially careful ran
  · exact careful.imp fun state request met next stepped => (step_keeps met stepped).1

theorem run_single (unused : state.map.content request.child = none) :
    Machine.run step state [request] =
      some (store.handleAuthoring request.freshName request.msg state).2 := by
  rw [Machine.run, step, if_pos unused]
  rfl

/-! A store of templates in which `/a` is open to every caller. -/

def templates : SpecStore where
  codec := Tagged.codec
  subtree := ".templates"
  validator := templateValidator
  operatorRoles := "A"
  materializedBodyBytes := 1000
  version := fun _ => "v"
  canonicalExtension := fun _ => some "json"
  serve := fun _ _ => .error (.notFound "nothing served")

def plainTemplate : Value := Value.object [("source", .str "x")]

def openTemplate : Value := Value.object [("access", .str "open"), ("source", .str "x")]

def openAtA : templates.State :=
  .ofMap ((FileMap.mk [] []).put [("a" : Str)] (Tagged.codec.encode openTemplate))

/-- A request by an anonymous caller. -/
def templateRequest (method : Method) (path : Str) (headers : HeaderMap) (body : Option Value) :
    Message :=
  let msg := Message.request method (("/m/.templates" : Str) ++ path) "t" "trace"
  { msg with
    url := msg.url.applyMount "/m"
    headers := headers
    body := body.map (Body.fromJson Tagged.codec) }

def putPlain : templates.Request where
  msg := templateRequest .put "/b" [] (some plainTemplate)
  freshName := "fresh"
  authoring := by decide +kernel
  byAuthor := rfl

theorem put_without_access_keeps_authority :
    ∃ final, Machine.run step openAtA [putPlain] = some final ∧
      specAt templates final.map "/b" = some plainTemplate ∧
      KeptSince templates openAtA.map final.map := by
  have careful : Machine.AllMeet step (fun state request => Careful state.map request)
      openAtA [putPlain] := by
    refine ⟨⟨fun post => ?_, fun move => ?_, fun post => ?_⟩, ?_⟩
    · exact absurd post (by decide)
    · exact absurd move (by decide)
    · exact absurd post (by decide)
    · split <;> trivial
  have ran := run_single (show openAtA.map.content putPlain.child = none by decide +kernel)
  exact ⟨_, ran, by decide +kernel,
    (authoring_keeps_authority templates openAtA _ [putPlain] careful ran).1⟩

theorem not_keptSince {initial current : FileMap} (found : specAt store current path = some doc)
    (set : accessOf (some doc) ≠ none)
    (changed : accessOf (some doc) ≠ accessOf (specAt store initial path)) :
    ¬ KeptSince store initial current := by
  intro kept
  rcases kept.access path doc found with gone | same
  · exact set gone
  · exact changed same

/-- A document that has an `access` and nothing else. -/
def onlyAccess : Value := Value.object [("access", .str "open")]

def postOpen : templates.Request where
  msg := templateRequest .post "/b" [] (some onlyAccess)
  freshName := "fresh"
  authoring := by decide +kernel
  byAuthor := rfl

def moveOpen : templates.Request where
  msg := templateRequest (.extension "MOVE") "/a" [("destination", "/m/.templates/b")] none
  freshName := "fresh"
  authoring := by decide +kernel
  byAuthor := rfl

/-- A post to a document's path is neither held to the gate nor validated, and a move carries
an `access` to another path. -/
theorem posts_and_moves_set_access :
    (∃ final, Machine.run step openAtA [postOpen] = some final ∧
      specAt templates final.map "/b" = some onlyAccess ∧
      (templates.validator.validate onlyAccess).toBool = false ∧
      ¬ KeptSince templates openAtA.map final.map) ∧
    ∃ final, Machine.run step openAtA [moveOpen] = some final ∧
      specAt templates final.map "/b" = some openTemplate ∧
      ¬ KeptSince templates openAtA.map final.map := by
  have posted := run_single (show openAtA.map.content postOpen.child = none by decide +kernel)
  have moved := run_single (show openAtA.map.content moveOpen.child = none by decide +kernel)
  have postedDoc : specAt templates
      (templates.handleAuthoring postOpen.freshName postOpen.msg openAtA).2.map "/b" =
        some onlyAccess := by
    decide +kernel
  have movedDoc : specAt templates
      (templates.handleAuthoring moveOpen.freshName moveOpen.msg openAtA).2.map "/b" =
        some openTemplate := by
    decide +kernel
  exact ⟨⟨_, posted, postedDoc, by decide +kernel,
      not_keptSince postedDoc (by decide +kernel) (by decide +kernel)⟩,
    ⟨_, moved, movedDoc, not_keptSince movedDoc (by decide +kernel) (by decide +kernel)⟩⟩

end Rs2Runtime.Services.SpecStore
