import Rs2Runtime.Services.File
import Rs2Runtime.Wrapper.Scope

/-!
Contract: the files a request to a file mount changes, against the grant that admits it.

Owns:
- the files that each successful request creates, replaces or removes;
- requests admitted by a path-scoped grant;
- when everything such a request changes lies within the grant, and a move stays in its mount.
-/

namespace Rs2Runtime.Services.FileService

open Text Data Capabilities Wrapper

/-! ## Paths -/

/-- Text appended to the last segment of a path leaves the segments before it. -/
theorem segments_prefix_append_iff {path : Str} {last : Char} {scope : List Str}
    (ends : path.getLast? = some last) (unfinished : last ≠ '/')
    (within : scope <+: segments path) (extension : Str) :
    scope <+: segments (path ++ '.' :: extension) ↔ scope ≠ segments path := by
  constructor
  · rintro extended rfl
    exact not_segments_prefix_append ends unfinished (by decide) extension extended
  · intro strict
    have nonempty : path ≠ [] := by
      rintro rfl
      cases ends
    by_cases slashed : '/' ∈ path
    · obtain ⟨before, after, rfl, absent⟩ := exists_last_slash slashed
      have named : after ≠ [] := by
        rintro rfl
        rw [List.getLast?_append, List.getLast?_singleton] at ends
        cases ends
        exact unfinished rfl
      rw [segments_append_slash, segments_of_not_mem absent, if_neg named] at within strict
      have above : scope <+: segments before :=
        (List.prefix_concat_iff.mp within).resolve_left strict
      rw [List.append_assoc, List.cons_append, segments_append_slash]
      exact above.trans (List.prefix_append _ _)
    · rw [segments_of_not_mem slashed, if_neg nonempty] at within strict
      have empty : scope = [] := by
        rcases List.prefix_cons_iff.mp within with rfl | ⟨rest, rfl, below⟩
        · rfl
        · rw [List.prefix_nil.mp below] at strict
          exact absurd rfl strict
      rw [empty]
      exact List.nil_prefix

/-! ## What a request changes -/

section Changes

variable {service : FileService} {host : FileHost FileMap} {version : Octets → Str}
  {msg : Message} {map after : FileMap} {response : Message}

theorem touched_move (done : move (FileMap.store version) msg map = (.ok response, after)) :
    ∃ dest, moveDestination msg = .ok dest ∧
      after.touched = map.touched ++ [segments msg.url.servicePath, segments dest] := by
  obtain ⟨dest, mapped, rest⟩ := Effect.ofExcept_bind_eq_ok.mp done
  obtain ⟨created, _, renamed, finished⟩ := Effect.bind_eq_ok.mp rest
  obtain ⟨octets, -, rfl⟩ := FileMap.rename_eq_ok renamed
  obtain ⟨-, rfl⟩ := Effect.pure_eq_ok.mp finished
  refine ⟨dest, mapped, ?_⟩
  simp [FileMap.put, FileMap.remove]

theorem touched_createChild
    (done : createChild host (FileMap.store version) msg map = (.ok response, after)) :
    ∃ name, after.touched = map.touched ++ [segments (msg.url.servicePath ++ name)] := by
  obtain ⟨body, -, rest⟩ := Effect.ofExcept_bind_eq_ok.mp done
  obtain ⟨created, _, wrote, tagged⟩ := Effect.bind_eq_ok.mp rest
  obtain ⟨octets, -, rfl⟩ := FileMap.write_eq_ok wrote
  obtain ⟨etag, -, finished⟩ := Effect.reading_bind_eq_ok.mp tagged
  refine ⟨host.freshName ++ extensionFor host.canonicalExtension body.mediaType, ?_⟩
  cases etag with
  | none =>
    obtain ⟨-, rfl⟩ := Effect.pure_eq_ok.mp finished
    rw [← List.append_assoc]
    rfl
  | some tag =>
    obtain ⟨-, rfl⟩ := Effect.pure_eq_ok.mp finished
    rw [← List.append_assoc]
    rfl

theorem touched_upsert
    (done : service.upsert (FileMap.store version) msg map = (.ok response, after)) :
    msg.url.isDirectory = false ∧
      ∃ path, service.storePath msg.url.servicePath = .ok path ∧
        after.touched = map.touched ++ [segments path] := by
  obtain ⟨_, file, rest⟩ := Effect.ofExcept_bind_eq_ok.mp done
  obtain ⟨body, -, given⟩ := Effect.ofExcept_bind_eq_ok.mp rest
  obtain ⟨path, pinned, addressed⟩ := Effect.ofExcept_bind_eq_ok.mp given
  obtain ⟨outcome, _, wrote, finished⟩ := Effect.bind_eq_ok.mp addressed
  obtain ⟨octets, -, rfl⟩ := FileMap.write_eq_ok (FileStore.write_of_writeCond wrote)
  refine ⟨Outcome.require_eq_ok.mp file, path, pinned, ?_⟩
  split at finished
  · obtain ⟨-, rfl⟩ := Effect.pure_eq_ok.mp finished
    rfl
  · obtain ⟨-, rfl⟩ := Effect.pure_eq_ok.mp finished
    rfl

theorem touched_removeDirectory
    (done : removeDirectory (FileMap.store version) msg map = (.ok (), after)) :
    ∃ keys, after.touched = map.touched ++ keys ∧
      ∀ key ∈ keys, segments msg.url.servicePath <+: key := by
  obtain ⟨-, -, rest⟩ := Effect.ofExcept_bind_eq_ok.mp done
  split at rest
  · rw [FileMap.deleteDirAll_eq_ok rest]
    exact ⟨_, rfl, fun key member => FileMap.prefix_of_mem_below member⟩
  · rw [FileMap.deleteDir_eq_ok rest]
    exact ⟨[], by rw [List.append_nil], by simp⟩

/-- What a bare name stands for is the name with an extension. -/
theorem eq_append_of_probe {σ : Type} {store : FileStore σ} {path real : Str}
    {extensions : List Str} {state : σ}
    (found : probe store path extensions state = .ok (some real)) :
    ∃ extension, real = path ++ '.' :: extension := by
  induction extensions with
  | nil => cases found
  | cons extension rest ih =>
    rw [probe] at found
    split at found
    · split at found
      · exact ih found
      · cases found
        exact ⟨extension, rfl⟩
    · split at found
      · exact ih found
      · cases found

/-- A conditional delete that fails on the map leaves it, and reports a missing file only where
there is none. -/
theorem deleteCond_eq_error {path : Str} {precondition : WritePrecondition} {e : RsError}
    (failed : (FileMap.store version).deleteCond path precondition map = (.error e, after)) :
    after = map ∧ (e.code = .notFound → map.content path = none) := by
  rw [FileStore.deleteCond] at failed
  cases checked : (FileMap.store version).checkDelete path precondition map with
  | error refusal =>
    rw [Effect.bind_of_error (by rw [Effect.reading_run, checked])] at failed
    cases failed
    refine ⟨rfl, fun missing => ?_⟩
    by_contra present
    obtain ⟨octets, found⟩ := Option.ne_none_iff_exists'.mp present
    have tagged : (FileMap.store version).currentEtag path map =
        .ok (some ('"' :: version octets ++ ['"'])) := by
      simp [FileStore.currentEtag, FileMap.store, FileMap.read, found]
    cases precondition with
    | none => cases checked
    | ifMatch want =>
      simp only [FileStore.checkDelete, tagged] at checked
      obtain ⟨-, rfl⟩ := Outcome.require_eq_error.mp checked
      cases missing
    | ifNoneMatchStar =>
      simp only [FileStore.checkDelete, tagged] at checked
      change Outcome.require (some ('"' :: version octets ++ ['"']) = none) _ = _ at checked
      obtain ⟨-, rfl⟩ := Outcome.require_eq_error.mp checked
      cases missing
  | ok passed =>
    rw [Effect.bind_of_ok (by rw [Effect.reading_run, checked])] at failed
    change FileMap.delete path map = _ at failed
    cases found : map.content path with
    | none =>
      rw [FileMap.delete_of_missing found] at failed
      cases failed
      exact ⟨rfl, fun _ => rfl⟩
    | some octets =>
      rw [FileMap.delete, found] at failed
      cases failed

theorem touched_removeFile
    (done : service.removeFile (FileMap.store version) msg map = (.ok (), after)) :
    (map.content msg.url.servicePath).isSome ∧
        after.touched = map.touched ++ [segments msg.url.servicePath] ∨
      map.content msg.url.servicePath = none ∧ service.site.friendlyUrls = true ∧
        isExtensionless msg.url.servicePath = true ∧
        ∃ extension, after.touched =
          map.touched ++ [segments (msg.url.servicePath ++ '.' :: extension)] := by
  rw [removeFile] at done
  rcases outcome : (FileMap.store version).deleteCond msg.url.servicePath
    (writePrecondition msg) map with ⟨e | _, between⟩
  · rw [Effect.bind_of_ok (by rw [Effect.attempt_run, outcome])] at done
    obtain ⟨rfl, absent⟩ := deleteCond_eq_error outcome
    dsimp only at done
    split at done
    · rename_i friendly
      obtain ⟨found, looked, finished⟩ := Effect.reading_bind_eq_ok.mp done
      cases found with
      | none => cases finished
      | some real =>
        obtain ⟨extension, rfl⟩ := eq_append_of_probe looked
        obtain ⟨-, rfl⟩ := FileMap.delete_eq_ok (FileStore.delete_of_deleteCond finished)
        exact .inr ⟨absent friendly.1, friendly.2.1, friendly.2.2, extension, rfl⟩
    · cases done
  · rw [Effect.bind_of_ok (by rw [Effect.attempt_run, outcome])] at done
    obtain ⟨-, rfl⟩ := Effect.pure_eq_ok.mp done
    obtain ⟨present, rfl⟩ := FileMap.delete_eq_ok (FileStore.delete_of_deleteCond outcome)
    exact .inl ⟨present, rfl⟩

end Changes

/-! ## Grants -/

/-- A request to a file mount, admitted by a path-scoped grant of the mount's role object. -/
structure AdmittedBy (mount : Mount) (msg : Message) (pattern : Str) : Prop where
  file : mount.service = "file"
  mounted : ∃ url, msg.url = MsgUrl.applyMount url mount.basePath
  accepted : checkAccess msg mount = .ok ()
  granted : ∃ spec role, mount.config.get? "access" = some (.obj spec) ∧
    (role, some pattern) ∈ grants (resolveRole spec (actionFor msg.method)) ∧
    admits msg.principal msg.url.servicePath (role, some pattern) = true

/-- The segments that a grant's pattern resolves to for the caller. -/
def scopeOf (msg : Message) (pattern : Str) : List Str :=
  segments (resolveScope msg.principal pattern)

/-- Everything a request creates, replaces or removes lies in a scope, and a move's
destination is in the mount. -/
structure StaysWithin (msg : Message) (scope : List Str) (before after : FileMap) : Prop where
  touched : Grows (scope <+: ·) before.touched after.touched
  destination : msg.method.name = "MOVE" → ∀ raw, msg.header "destination" = some raw →
    inScope msg.url.basePath raw = true

/-- The request goes to another file than the one it names: a bare name that is written under
an extension, or deleted under one because it is not stored itself. -/
def Pinned (service : FileService) (msg : Message) (map : FileMap) : Prop :=
  service.site.friendlyUrls = true ∧ isExtensionless msg.url.servicePath = true ∧
    msg.url.isDirectory = false ∧
    (msg.method = .put ∨ msg.method = .post ∨
      msg.method = .delete ∧ map.content msg.url.servicePath = none)

/-- What a request addresses lies in a scope: the mapped destination of a move, which is named
in the mount, and what a bare name stands for. -/
structure AddressesWithin (service : FileService) (msg : Message) (map : FileMap)
    (scope : List Str) : Prop where
  move : msg.method.name = "MOVE" → ∀ raw dest, msg.header "destination" = some raw →
    moveDestination msg = .ok dest →
      inScope msg.url.basePath raw = true ∧ scope <+: segments dest
  bare : Pinned service msg map → scope ≠ segments msg.url.servicePath

theorem AdmittedBy.within {mount : Mount} {msg : Message} {pattern : Str}
    (admitted : AdmittedBy mount msg pattern) :
    scopeOf msg pattern <+: segments msg.url.servicePath := by
  obtain ⟨spec, role, -, -, admits_⟩ := admitted.granted
  rw [admits, Bool.and_eq_true] at admits_
  exact segments_of_inScope admits_.2

theorem AdmittedBy.servicePath_ne_nil {mount : Mount} {msg : Message} {pattern : Str}
    (admitted : AdmittedBy mount msg pattern) : msg.url.servicePath ≠ [] := by
  obtain ⟨url, split⟩ := admitted.mounted
  rw [split, MsgUrl.applyMount]
  dsimp only
  split
  · decide
  · assumption

theorem exists_header_of_moveDestination {msg : Message} {dest : Str}
    (mapped : moveDestination msg = .ok dest) : ∃ raw, msg.header "destination" = some raw := by
  cases found : msg.header "destination" with
  | some raw => exact ⟨raw, rfl⟩
  | none =>
    simp only [moveDestination, found, Outcome.bind_eq_ok] at mapped
    obtain ⟨-, -, impossible⟩ := mapped
    cases impossible

section Requests

variable {service : FileService} {host : FileHost FileMap} {version : Octets → Str}
  {msg : Message} {map after : FileMap} {response : Message} {scope : List Str}

/-- One changed file is in the scope exactly when its path is. -/
theorem grows_iff_of_touched_one {key : FileKey} (touched : after.touched = map.touched ++ [key]) :
    Grows (scope <+: ·) map.touched after.touched ↔ scope <+: key := by
  rw [grows_iff_of_append touched]
  simp

theorem exists_last_of_file (nonempty : msg.url.servicePath ≠ [])
    (file : msg.url.isDirectory = false) :
    ∃ last, msg.url.servicePath.getLast? = some last ∧ last ≠ '/' := by
  refine ⟨msg.url.servicePath.getLast nonempty, List.getLast?_eq_some_getLast nonempty, ?_⟩
  intro slash
  rw [MsgUrl.isDirectory, List.getLast?_eq_some_getLast nonempty, slash] at file
  cases file

/-- What is named in a directory lies below it. -/
theorem segments_prefix_child (directory : msg.url.isDirectory = true) (name : Str) :
    segments msg.url.servicePath <+: segments (msg.url.servicePath ++ name) := by
  rw [MsgUrl.isDirectory, decide_eq_true_eq] at directory
  obtain ⟨front, shape⟩ := List.getLast?_eq_some_iff.mp directory
  rw [shape, List.append_assoc, List.singleton_append, segments_append_slash,
    segments_append_slash, segments_nil, List.append_nil]
  exact List.prefix_append _ _

theorem upsert_within_iff
    (done : service.upsert (FileMap.store version) msg map = (.ok response, after))
    (writes : msg.method = .put ∨ msg.method = .post) (nonempty : msg.url.servicePath ≠ [])
    (within : scope <+: segments msg.url.servicePath) :
    Grows (scope <+: ·) map.touched after.touched ↔
      (Pinned service msg map → scope ≠ segments msg.url.servicePath) := by
  obtain ⟨file, path, stored, touched⟩ := touched_upsert done
  obtain ⟨last, ends, unfinished⟩ := exists_last_of_file nonempty file
  rw [grows_iff_of_touched_one touched]
  rw [storePath] at stored
  split at stored
  · rename_i friendly
    have pinned : Pinned service msg map :=
      ⟨friendly.1, friendly.2, file, by rcases writes with put | post <;> simp [*]⟩
    split at stored
    · cases stored
    · cases stored
      rw [segments_prefix_append_iff ends unfinished within]
      exact ⟨fun strict _ => strict, fun strict => strict pinned⟩
  · rename_i exact_
    cases stored
    exact iff_of_true within fun pinned => absurd ⟨pinned.1, pinned.2.1⟩ exact_

theorem removeFile_within_iff
    (done : service.removeFile (FileMap.store version) msg map = (.ok (), after))
    (deletes : msg.method = .delete) (file : msg.url.isDirectory = false)
    (nonempty : msg.url.servicePath ≠ []) (within : scope <+: segments msg.url.servicePath) :
    Grows (scope <+: ·) map.touched after.touched ↔
      (Pinned service msg map → scope ≠ segments msg.url.servicePath) := by
  obtain ⟨last, ends, unfinished⟩ := exists_last_of_file nonempty file
  rcases touched_removeFile done with ⟨present, touched⟩ | ⟨absent, friendly, bare, extension, touched⟩
  · rw [grows_iff_of_touched_one touched]
    refine iff_of_true within fun pinned => ?_
    rcases pinned.2.2.2 with put | post | ⟨-, absent⟩
    · rw [deletes] at put
      cases put
    · rw [deletes] at post
      cases post
    · rw [absent] at present
      cases present
  · rw [grows_iff_of_touched_one touched, segments_prefix_append_iff ends unfinished within]
    have pinned : Pinned service msg map :=
      ⟨friendly, bare, file, .inr (.inr ⟨deletes, absent⟩)⟩
    exact ⟨fun strict _ => strict, fun strict => strict pinned⟩

/-- Apart from moves, what a request changes stays within a scope that holds its path exactly
when no bare name leads out of it. -/
theorem handle_within_iff
    (done : service.handle host (FileMap.store version) msg map = (.ok response, after))
    (notMove : msg.method.name ≠ "MOVE") (nonempty : msg.url.servicePath ≠ [])
    (within : scope <+: segments msg.url.servicePath) :
    Grows (scope <+: ·) map.touched after.touched ↔
      (Pinned service msg map → scope ≠ segments msg.url.servicePath) := by
  rw [handle, if_neg notMove] at done
  have unpinned : ∀ {kept : Prop}, kept → ¬ Pinned service msg map →
      (kept ↔ (Pinned service msg map → scope ≠ segments msg.url.servicePath)) :=
    fun holds notPinned => iff_of_true holds fun pinned => absurd pinned notPinned
  cases method : msg.method with
  | get | head =>
    rw [method] at done
    obtain ⟨-, rfl⟩ := Prod.mk.inj done
    exact unpinned (Grows.refl _ _) fun pinned => by simp [Pinned, method] at pinned
  | put =>
    rw [method] at done
    exact upsert_within_iff done (.inl method) nonempty within
  | post =>
    rw [method] at done
    cases directory : msg.url.isDirectory with
    | false =>
      simp only [directory] at done
      exact upsert_within_iff done (.inr method) nonempty within
    | true =>
      simp only [directory] at done
      obtain ⟨name, touched⟩ := touched_createChild done
      rw [grows_iff_of_touched_one touched]
      exact unpinned (within.trans (segments_prefix_child directory name))
        fun pinned => by simp [Pinned, directory] at pinned
  | delete =>
    rw [method] at done
    obtain ⟨_, between, removed, finished⟩ := Effect.bind_eq_ok.mp done
    obtain ⟨-, rfl⟩ := Effect.pure_eq_ok.mp finished
    cases directory : msg.url.isDirectory with
    | false =>
      rw [removeTarget, directory] at removed
      exact removeFile_within_iff removed method directory nonempty within
    | true =>
      rw [removeTarget, directory] at removed
      obtain ⟨keys, touched, below⟩ := touched_removeDirectory removed
      rw [grows_iff_of_append touched]
      exact unpinned (fun key member => within.trans (below key member))
        fun pinned => by simp [Pinned, directory] at pinned
  | patch | options | connect | trace | extension token =>
    rw [method] at done
    cases done

end Requests

/-- What a request changes stays within the grant that admits it, and a move within its mount,
exactly when what it addresses does. -/
theorem changes_within_grant_iff (service : FileService) (host : FileHost FileMap)
    (version : Octets → Str) (mount : Mount) (msg : Message) (pattern : Str) (map after : FileMap)
    (response : Message) (admitted : AdmittedBy mount msg pattern)
    (done : service.handle host (FileMap.store version) msg map = (.ok response, after)) :
    StaysWithin msg (scopeOf msg pattern) map after ↔
      AddressesWithin service msg map (scopeOf msg pattern) := by
  have within := admitted.within
  by_cases isMove : msg.method.name = "MOVE"
  · rw [handle, if_pos isMove] at done
    obtain ⟨dest, mapped, touched⟩ := touched_move done
    obtain ⟨raw, named⟩ := exists_header_of_moveDestination mapped
    have unpinned : ¬ Pinned service msg map := by
      rintro ⟨-, -, -, method | method | ⟨method, -⟩⟩ <;> rw [method] at isMove <;>
        exact absurd isMove (by decide)
    constructor
    · intro stays
      have inScope_ := (grows_iff_of_append touched).mp stays.touched
      refine ⟨fun _ raw' dest' named' mapped' => ⟨stays.destination isMove raw' named', ?_⟩,
        fun pinned => absurd pinned unpinned⟩
      rw [mapped] at mapped'
      cases mapped'
      exact inScope_ _ (by simp)
    · intro addresses
      have target := addresses.move isMove raw dest named mapped
      refine ⟨(grows_iff_of_append touched).mpr ?_, fun _ raw' named' => ?_⟩
      · intro key member
        rcases List.mem_cons.mp member with rfl | later
        · exact within
        · rw [List.mem_singleton.mp later]
          exact target.2
      · exact (addresses.move isMove raw' dest named' mapped).1
  · have growth := handle_within_iff done isMove admitted.servicePath_ne_nil within
    constructor
    · intro stays
      exact ⟨fun move => absurd move isMove, growth.mp stays.touched⟩
    · intro addresses
      exact ⟨growth.mpr addresses.bare, fun move => absurd move isMove⟩

/-! ## Own folders -/

/-- A mount whose callers may write in their own folders. -/
def ownFolders : Mount where
  basePath := "/files"
  service := "file"
  config := .obj [("access", .obj [("write", .str "U /u/\x7bemail\x7d")])]

/-- A request by ann. -/
def requestByAnn (method : Method) (path : Str) (headers : HeaderMap) : Message :=
  { requestTo method path headers with
    principal := some (caller "ann" [])
    body := some (Body.fromString "text" .json) }

/-- A map with one file of ann's. -/
def annsFile : FileMap where
  files := [([("u" : Str), "ann", "x"], [1])]
  touched := []

theorem admittedBy_ownFolders {method : Method} {path : Str} {headers : HeaderMap}
    (writes : resolveRole [("write", .str "U /u/\x7bemail\x7d")] (actionFor method) =
      "U /u/\x7bemail\x7d")
    (inside : admits (some (caller "ann" [])) (requestByAnn method path headers).url.servicePath
      ("U", some "/u/\x7bemail\x7d") = true)
    (accepted : checkAccess (requestByAnn method path headers) ownFolders = .ok ()) :
    AdmittedBy ownFolders (requestByAnn method path headers) "/u/\x7bemail\x7d" where
  file := rfl
  mounted := ⟨_, rfl⟩
  accepted := accepted
  granted := by
    refine ⟨[("write", .str "U /u/\x7bemail\x7d")], "U", rfl, ?_, inside⟩
    change _ ∈ grants (resolveRole _ (actionFor method))
    rw [writes]
    decide +kernel

/-- What becomes of ann's request. -/
def handled (site : SiteOptions) (msg : Message) : Except RsError Message × FileMap :=
  handle ⟨site⟩ (plainHost FileMap) (FileMap.store fun _ => []) msg annsFile

theorem put_stays_in_own_folder :
    StaysWithin (requestByAnn .put "/u/ann/y" []) [("u" : Str), "ann"] annsFile
      (handled .default (requestByAnn .put "/u/ann/y" [])).2 := by
  have done : (handled .default (requestByAnn .put "/u/ann/y" [])).1.toBool = true := by
    decide +kernel
  have scope : scopeOf (requestByAnn .put "/u/ann/y" []) "/u/\x7bemail\x7d" =
      [("u" : Str), "ann"] := by
    decide +kernel
  rcases result : handled .default (requestByAnn .put "/u/ann/y" []) with ⟨e | response, after⟩
  · rw [result] at done
    cases done
  · rw [← scope]
    refine (changes_within_grant_iff ⟨.default⟩ (plainHost FileMap) (fun _ => []) ownFolders
      (requestByAnn .put "/u/ann/y" []) "/u/\x7bemail\x7d" annsFile after response
      (admittedBy_ownFolders (by decide +kernel) (by decide +kernel) (by decide +kernel))
      result).mpr ⟨fun move => absurd move (by decide +kernel), fun pinned => ?_⟩
    exact absurd pinned.1 (by decide)

/-- A request whose grant it leaves: it is admitted and succeeds. -/
structure LeavesGrant (site : SiteOptions) (msg : Message) : Prop where
  admitted : AdmittedBy ownFolders msg "/u/\x7bemail\x7d"
  succeeds : (handled site msg).1.toBool = true
  leaves : ¬ StaysWithin msg (scopeOf msg "/u/\x7bemail\x7d") annsFile (handled site msg).2

theorem not_staysWithin_of_mem {msg : Message} {scope : List Str} {after : FileMap}
    (key : FileKey) (member : key ∈ after.touched) (outside : ¬ scope <+: key) :
    ¬ StaysWithin msg scope annsFile after :=
  fun stays => outside ((grows_iff_of_append (List.nil_append _).symm).mp stays.touched key member)

/-- Ann moves a file into another folder and to a destination outside of the mount, and writes
a file next to the own folder, under the folder's name. -/
theorem changes_leave_own_folder :
    LeavesGrant .default
        (requestByAnn (.extension "MOVE") "/u/ann/x" [("destination", "/files/u/bob/x")]) ∧
      LeavesGrant .default
        (requestByAnn (.extension "MOVE") "/u/ann/x" [("destination", "/u/ann/y")]) ∧
      LeavesGrant ⟨true, ["html"]⟩ (requestByAnn .put "/u/ann" []) := by
  refine ⟨⟨?_, by decide +kernel, ?_⟩, ⟨?_, by decide +kernel, fun stays => ?_⟩,
    ⟨?_, by decide +kernel, ?_⟩⟩
  · exact admittedBy_ownFolders (by decide +kernel) (by decide +kernel) (by decide +kernel)
  · exact not_staysWithin_of_mem [("u" : Str), "bob", "x"] (by decide +kernel) (by decide +kernel)
  · exact admittedBy_ownFolders (by decide +kernel) (by decide +kernel) (by decide +kernel)
  · exact absurd (stays.destination (by decide +kernel) "/u/ann/y" (by decide +kernel))
      (by decide +kernel)
  · exact admittedBy_ownFolders (by decide +kernel) (by decide +kernel) (by decide +kernel)
  · exact not_staysWithin_of_mem [("u" : Str), "ann.html"] (by decide +kernel) (by decide +kernel)

end Rs2Runtime.Services.FileService
