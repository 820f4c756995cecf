import Rs2Runtime.Data.Effect
import Rs2Runtime.Data.Outcome
import Rs2Runtime.Services.Conditional

/-!
Contract: file stores as services see them, scoped to one tenant.

Owns:
- the operations of a store, and the conditional ones derived from them;
- the decorator that roots a store under a path;
- the store that behaves as a map from paths to octets.
-/

namespace Rs2Runtime.Capabilities

open Text Data Services

/-- What `head` tells about a path. -/
structure FileMeta where
  size : Nat
  isDir : Bool
  deriving DecidableEq, Repr

/-- What a read gives: the content and, where the store has one, its content version. -/
structure StoredFile where
  octets : Octets
  version : Option Str
  deriving DecidableEq, Repr

structure WriteOutcome where
  created : Bool
  etag : Option Str
  deriving DecidableEq, Repr

/-- A file store over a state.  `write` and `rename` tell whether the file they leave was
created. -/
structure FileStore (σ : Type) where
  head : Str → σ → Except RsError FileMeta
  read : Str → σ → Except RsError StoredFile
  write : Str → Body → Effect RsError σ Bool
  delete : Str → Effect RsError σ Unit
  rename : (source target : Str) → Effect RsError σ Bool
  deleteDir : Str → Effect RsError σ Unit
  deleteDirAll : Str → Effect RsError σ Unit

variable {path : Str}

namespace FileStore

variable {σ : Type} (store : FileStore σ)

/-- The quoted content version of a stored file; none where there is no file. -/
def currentEtag (path : Str) (state : σ) : Except RsError (Option Str) :=
  match store.read path state with
  | .ok file => .ok (file.version.map fun version => '"' :: version ++ ['"'])
  | .error e => if e.status = 404 then .ok none else .error e

/-- The check before a conditional write. -/
def checkWrite (path : Str) : WritePrecondition → σ → Except RsError Unit
  | .none, _ => .ok ()
  | .ifMatch want, state => do
      match ← store.currentEtag path state with
      | some current =>
        Outcome.require (ifMatchHits want current) (RsError.preconditionFailed
          "If-Match does not match the current ETag — re-read and retry")
      | none => .error (.preconditionFailed "If-Match given but the resource does not exist")
  | .ifNoneMatchStar, state => do
      let current ← store.currentEtag path state
      Outcome.require (current = none) (RsError.preconditionFailed
        "If-None-Match: * given but the resource already exists")

/-- Check, then write. -/
def writeCond (path : Str) (body : Body) (precondition : WritePrecondition) :
    Effect RsError σ WriteOutcome := do
  let _ ← Effect.reading (store.checkWrite path precondition)
  let created ← store.write path body
  let etag ← Effect.reading (store.currentEtag path)
  return ⟨created, etag⟩

/-- The check before a conditional delete; what is not there is left to the delete. -/
def checkDelete (path : Str) : WritePrecondition → σ → Except RsError Unit
  | .none, _ => .ok ()
  | .ifMatch want, state => do
      match ← store.currentEtag path state with
      | some current =>
        Outcome.require (ifMatchHits want current) (RsError.preconditionFailed
          "If-Match does not match the current ETag — re-read and retry")
      | none => .ok ()
  | .ifNoneMatchStar, state => do
      let current ← store.currentEtag path state
      Outcome.require (current = none) (RsError.preconditionFailed
        "If-None-Match: * given but the resource exists")

/-- Check, then delete. -/
def deleteCond (path : Str) (precondition : WritePrecondition) : Effect RsError σ Unit := do
  let _ ← Effect.reading (store.checkDelete path precondition)
  store.delete path

theorem write_of_writeCond {σ : Type} {store : FileStore σ} {body : Body}
    {precondition : WritePrecondition} {before after : σ} {outcome : WriteOutcome}
    (done : store.writeCond path body precondition before = (.ok outcome, after)) :
    store.write path body before = (.ok outcome.created, after) := by
  obtain ⟨-, -, rest⟩ := Effect.reading_bind_eq_ok.mp done
  obtain ⟨created, written, ran, tagged⟩ := Effect.bind_eq_ok.mp rest
  obtain ⟨etag, -, finished⟩ := Effect.reading_bind_eq_ok.mp tagged
  obtain ⟨rfl, rfl⟩ := Effect.pure_eq_ok.mp finished
  exact ran

theorem delete_of_deleteCond {σ : Type} {store : FileStore σ} {precondition : WritePrecondition}
    {before after : σ} (done : store.deleteCond path precondition before = (.ok (), after)) :
    store.delete path before = (.ok (), after) := by
  obtain ⟨-, -, rest⟩ := Effect.reading_bind_eq_ok.mp done
  exact rest

/-- A conditional write leaves the state or what the write leaves. -/
theorem writeCond_state {σ : Type} (store : FileStore σ) (path : Str) (body : Body)
    (precondition : WritePrecondition) (state : σ) :
    (store.writeCond path body precondition state).2 = state ∨
      (store.writeCond path body precondition state).2 = (store.write path body state).2 := by
  rcases Effect.reading_bind_cases (store.checkWrite path precondition) _ state with
    stayed | ⟨_, -, went⟩
  · exact .inl stayed
  · refine .inr ((congrArg Prod.snd went).trans (Effect.bind_state_of_still ?_ state))
    intro created after
    exact Effect.bind_state_of_still (fun _ _ => rfl) after

/-- A conditional delete leaves the state or what the delete leaves. -/
theorem deleteCond_state {σ : Type} (store : FileStore σ) (path : Str)
    (precondition : WritePrecondition) (state : σ) :
    (store.deleteCond path precondition state).2 = state ∨
      (store.deleteCond path precondition state).2 = (store.delete path state).2 := by
  rcases Effect.reading_bind_cases (store.checkDelete path precondition) _ state with
    stayed | ⟨_, -, went⟩
  · exact .inl stayed
  · exact .inr (congrArg Prod.snd went)

/-- Every operation other than a recursive delete relates the states before and after. -/
structure Keeps {σ : Type} (rel : σ → σ → Prop) (store : FileStore σ) : Prop where
  write : ∀ path body, Effect.Keeps rel (store.write path body)
  delete : ∀ path, Effect.Keeps rel (store.delete path)
  rename : ∀ source target, Effect.Keeps rel (store.rename source target)
  deleteDir : ∀ path, Effect.Keeps rel (store.deleteDir path)

section Keeps

variable {σ : Type} {rel : σ → σ → Prop} [IsPreorder σ rel] {store : FileStore σ}

theorem Keeps.writeCond (kept : store.Keeps rel) (path : Str) (body : Body)
    (precondition : WritePrecondition) :
    Effect.Keeps rel (store.writeCond path body precondition) :=
  Effect.keeps_bind (Effect.keeps_reading _) fun _ =>
    Effect.keeps_bind (kept.write path body) fun _ =>
      Effect.keeps_bind (Effect.keeps_reading _) fun _ => Effect.keeps_pure _

theorem Keeps.deleteCond (kept : store.Keeps rel) (path : Str) (precondition : WritePrecondition) :
    Effect.Keeps rel (store.deleteCond path precondition) :=
  Effect.keeps_bind (Effect.keeps_reading _) fun _ => kept.delete path

end Keeps

end FileStore

/-! ## Stores under a path -/

/-- A path below a root. -/
def joinPath (root path : Str) : Str :=
  let rel := path.dropWhile (· = '/')
  if rel = [] then '/' :: root else '/' :: root ++ '/' :: rel

/-- The store with every call rooted under a path. -/
def FileStore.prefixed {σ : Type} (store : FileStore σ) (root : Str) : FileStore σ :=
  let join := joinPath (trimMatches (· = '/') root)
  { head := fun path => store.head (join path)
    read := fun path => store.read (join path)
    write := fun path => store.write (join path)
    delete := fun path => store.delete (join path)
    rename := fun source target => store.rename (join source) (join target)
    deleteDir := fun path => store.deleteDir (join path)
    deleteDirAll := fun path => store.deleteDirAll (join path) }

theorem FileStore.Keeps.prefixed {σ : Type} {rel : σ → σ → Prop} {store : FileStore σ}
    (kept : store.Keeps rel) (root : Str) :
    (store.prefixed root).Keeps rel where
  write := fun _ => kept.write _
  delete := fun _ => kept.delete _
  rename := fun _ _ => kept.rename _ _
  deleteDir := fun _ => kept.deleteDir _

/-- Joining puts the segments of the root before those of the path. -/
theorem segments_joinPath (root path : Str) :
    segments (joinPath root path) = segments root ++ segments path := by
  unfold joinPath
  by_cases empty : path.dropWhile (· = '/') = []
  · have none_ : segments path = [] := by
      rw [← segments_dropSlashes, empty, segments_nil]
    rw [if_pos empty, segments_slash_cons, none_, List.append_nil]
  · rw [if_neg empty, List.cons_append, segments_slash_cons, segments_append_slash,
      segments_dropSlashes]

/-! ## The map from paths to octets -/

/-- A file, addressed by the segments of its path. -/
abbrev FileKey := List Str

/-- Files by their keys.  `touched` lists the files created, replaced or removed so far; it is
kept to speak about runs. -/
structure FileMap where
  files : OrderedMap FileKey Octets
  touched : List FileKey
  deriving DecidableEq

namespace FileMap

/-- The content of the file at a path. -/
def content (map : FileMap) (path : Str) : Option Octets :=
  OrderedMap.get? map.files (segments path)

/-- The files strictly below a directory. -/
def below (map : FileMap) (dir : FileKey) : List FileKey :=
  (map.files.map Prod.fst).filter fun key => dir.isPrefixOf key && key ≠ dir

def put (map : FileMap) (key : FileKey) (octets : Octets) : FileMap :=
  ⟨OrderedMap.insert map.files key octets, map.touched ++ [key]⟩

def remove (map : FileMap) (key : FileKey) : FileMap :=
  ⟨OrderedMap.erase map.files key, map.touched ++ [key]⟩

def removeBelow (map : FileMap) (dir : FileKey) : FileMap :=
  ⟨map.files.filter fun entry => !(dir.isPrefixOf entry.1 && entry.1 ≠ dir),
    map.touched ++ map.below dir⟩

def missing : RsError :=
  .notFound "resource does not exist"

def head (path : Str) (map : FileMap) : Except RsError FileMeta :=
  match map.content path with
  | some octets => .ok ⟨octets.length, false⟩
  | none => if map.below (segments path) = [] then .error missing else .ok ⟨0, true⟩

def read (version : Octets → Str) (path : Str) (map : FileMap) : Except RsError StoredFile :=
  match map.content path with
  | some octets => .ok ⟨octets, some (version octets)⟩
  | none => .error missing

def write (path : Str) (body : Body) : Effect RsError FileMap Bool := fun map =>
  match body.streamed with
  | .error e => (.error e, map)
  | .ok octets => (.ok (map.content path).isNone, map.put (segments path) octets)

def delete (path : Str) : Effect RsError FileMap Unit := fun map =>
  match map.content path with
  | some _ => (.ok (), map.remove (segments path))
  | none => (.error missing, map)

def rename (source target : Str) : Effect RsError FileMap Bool := fun map =>
  match map.content source with
  | none => (.error (.notFound "source does not exist"), map)
  | some octets =>
    (.ok (map.content target).isNone,
      (map.remove (segments source)).put (segments target) octets)

def deleteDir (path : Str) : Effect RsError FileMap Unit := fun map =>
  if map.below (segments path) = [] then (.ok (), map)
  else (.error (.conflict "directory is not empty"), map)

def deleteDirAll (path : Str) : Effect RsError FileMap Unit := fun map =>
  if segments path = [] then
    (.error (.badRequest "refusing to recursively delete the store root"), map)
  else if map.below (segments path) = [] then
    (.error (.notFound "directory does not exist"), map)
  else
    (.ok (), map.removeBelow (segments path))

/-! Results of the map's operations. -/

variable {map after : FileMap}

theorem write_eq_ok {body : Body} {created : Bool}
    (done : write path body map = (.ok created, after)) :
    ∃ octets, body.streamed = .ok octets ∧ after = map.put (segments path) octets := by
  unfold write at done
  split at done
  · cases done
  · rename_i octets streamed
    cases done
    exact ⟨octets, streamed, rfl⟩

theorem delete_eq_ok (done : delete path map = (.ok (), after)) :
    (map.content path).isSome ∧ after = map.remove (segments path) := by
  unfold delete at done
  split at done
  · rename_i octets found
    cases done
    exact ⟨by rw [found]; rfl, rfl⟩
  · cases done

theorem delete_of_missing (absent : map.content path = none) :
    delete path map = (.error missing, map) := by
  rw [delete, absent]

theorem rename_eq_ok {source target : Str} {created : Bool}
    (done : rename source target map = (.ok created, after)) :
    ∃ octets, map.content source = some octets ∧
      after = (map.remove (segments source)).put (segments target) octets := by
  unfold rename at done
  split at done
  · cases done
  · rename_i octets found
    cases done
    exact ⟨octets, found, rfl⟩

theorem deleteDir_eq_ok (done : deleteDir path map = (.ok (), after)) : after = map := by
  unfold deleteDir at done
  split at done <;> cases done
  rfl

theorem deleteDirAll_eq_ok (done : deleteDirAll path map = (.ok (), after)) :
    after = map.removeBelow (segments path) := by
  unfold deleteDirAll at done
  split at done
  · cases done
  · split at done <;> cases done
    rfl

/-- Files are only taken away. -/
def Removes (before after : FileMap) : Prop :=
  ∀ key, after.files.get? key = none ∨ after.files.get? key = before.files.get? key

theorem removes_refl (map : FileMap) : Removes map map :=
  fun _ => .inr rfl

theorem removes_remove (map : FileMap) (erased : FileKey) : Removes map (map.remove erased) := by
  intro key
  by_cases same : key = erased
  · rw [same]
    exact .inl (OrderedMap.get?_erase_self _ _)
  · exact .inr (OrderedMap.get?_erase_of_ne _ same)

theorem removes_removeBelow (map : FileMap) (dir : FileKey) :
    Removes map (map.removeBelow dir) := by
  intro key
  unfold removeBelow
  rw [OrderedMap.get?_filter_keys map.files fun other => !(dir.isPrefixOf other && other ≠ dir)]
  split
  · exact .inr rfl
  · exact .inl rfl

theorem get?_put (map : FileMap) (stored key : FileKey) (octets : Octets) :
    (map.put stored octets).files.get? key =
      if key = stored then some octets else map.files.get? key :=
  OrderedMap.get?_insert map.files stored key octets

theorem write_state (path : Str) (body : Body) (map : FileMap) :
    (write path body map).2 = map ∨
      ∃ octets, body.streamed = .ok octets ∧
        (write path body map).2 = map.put (segments path) octets := by
  unfold write
  split
  · exact .inl rfl
  · rename_i octets streamed
    exact .inr ⟨octets, streamed, rfl⟩

theorem rename_state (source target : Str) (map : FileMap) :
    (rename source target map).2 = map ∨
      ∃ octets, map.content source = some octets ∧
        (rename source target map).2 =
          (map.remove (segments source)).put (segments target) octets := by
  unfold rename
  split
  · exact .inl rfl
  · rename_i octets found
    exact .inr ⟨octets, found, rfl⟩

theorem removes_delete (path : Str) (map : FileMap) : Removes map (delete path map).2 := by
  unfold delete
  split
  · exact removes_remove map _
  · exact removes_refl map

theorem removes_deleteDir (path : Str) (map : FileMap) : Removes map (deleteDir path map).2 := by
  unfold deleteDir
  split <;> exact removes_refl map

theorem removes_deleteDirAll (path : Str) (map : FileMap) :
    Removes map (deleteDirAll path map).2 := by
  unfold deleteDirAll
  split
  · exact removes_refl map
  · split
    · exact removes_refl map
    · exact removes_removeBelow map _

theorem prefix_of_mem_below {dir key : FileKey} (member : key ∈ map.below dir) : dir <+: key := by
  have parts := (List.mem_filter.mp member).2
  rw [Bool.and_eq_true, List.isPrefixOf_iff_prefix] at parts
  exact parts.1

/-- The map as a store, with content versions given by `version`. -/
def store (version : Octets → Str) : FileStore FileMap where
  head := head
  read := read version
  write := write
  delete := delete
  rename := rename
  deleteDir := deleteDir
  deleteDirAll := deleteDirAll

end FileMap

end Rs2Runtime.Capabilities
