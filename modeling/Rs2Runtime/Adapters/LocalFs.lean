import Rs2Runtime.Capabilities.FileStore
import Rs2Runtime.Data.FileTree
import Rs2Runtime.Router.Path

/-!
Contract: the file store on the local file system.

Owns:
- the system calls the store makes, each of which the system may refuse;
- the disk they act on, with the calls made so far;
- resolution of a tenant's path, and the store's operations.

Does not own: ranged reads, listings, or modification times beyond their place in content
versions.
-/

namespace Rs2Runtime.Adapters

open Text Data Capabilities

/-! ## The disk -/

/-- A path as the store hands it to the system: the components below the store's directory. -/
abbrev PathBuf := List Str

/-- What a path leads to. -/
abbrev Location := List Str

/-- A component that is a single dot stays where it is. -/
def locate (path : PathBuf) : Location :=
  path.filter (· ≠ ['.'])

inductive SysCall where
  | createDirAll (dir : Location)
  | create (file : PathBuf)
  | writeAll (file : PathBuf)
  | removeFile (file : PathBuf)
  | rename (source target : PathBuf)
  | removeDir (dir : PathBuf)
  | removeDirAll (dir : PathBuf)
  deriving DecidableEq, Repr

inductive IoError where
  | notFound
  | alreadyExists
  | other (message : Str)
  deriving DecidableEq, Repr

def IoError.text : IoError → Str
  | .notFound => "No such file or directory (os error 2)"
  | .alreadyExists => "File exists (os error 17)"
  | .other message => message

def IoError.toRsError : IoError → RsError
  | .notFound => .notFound "resource does not exist"
  | .alreadyExists => .conflict "resource already exists"
  | .other message => .internal (("io error: " : Str) ++ message)

def notDirectory : IoError :=
  .other "Not a directory (os error 20)"

/-- A file's octets and the time they were written. -/
structure FileContent where
  octets : Octets
  modified : Nat
  deriving DecidableEq, Repr

/-- The store's directory with the calls made on it. -/
structure Disk where
  tree : FileTree Str FileContent
  calls : List SysCall

namespace Disk

/-- The octets of the file at a location. -/
def content (disk : Disk) (location : Location) : Option Octets :=
  (disk.tree.file? location).map FileContent.octets

def log (disk : Disk) (call : SysCall) : Disk :=
  { disk with calls := disk.calls ++ [call] }

def metadata (disk : Disk) (path : PathBuf) : Except IoError FileMeta :=
  let location := locate path
  if location ∈ disk.tree.dirs then
    .ok ⟨0, true⟩
  else
    match disk.tree.file? location with
    | some file =>
      if path.getLast? = some ['.'] then .error notDirectory else .ok ⟨file.octets.length, false⟩
    | none =>
      if location.inits.any fun above => (disk.tree.file? above).isSome then
        .error notDirectory
      else
        .error .notFound

end Disk

/-- The system below the store.  It may refuse any call, with any error; times and fresh names
depend on the calls so far. -/
structure Os where
  refuses : List SysCall → SysCall → Option IoError
  now : List SysCall → Nat
  freshName : List SysCall → Str

/-- A system that refuses the listed calls and nothing else. -/
def Os.refusing (calls : List SysCall) : Os where
  refuses := fun _ call => if call ∈ calls then some (.other "refused") else none
  now := fun _ => 0
  freshName := fun _ => "fresh"

namespace Os

variable (os : Os)

/-- A call that is logged and, unless it is refused, acts. -/
def perform (call : SysCall) (act : FileTree Str FileContent →
    Except IoError Unit × FileTree Str FileContent) : Effect IoError Disk Unit := fun disk =>
  match os.refuses disk.calls call with
  | some e => (.error e, disk.log call)
  | none => ((act disk.tree).1, ⟨(act disk.tree).2, disk.calls ++ [call]⟩)

theorem perform_of_refused {os : Os} {call : SysCall}
    {act : FileTree Str FileContent → Except IoError Unit × FileTree Str FileContent}
    {disk : Disk} {e : IoError} (refused : os.refuses disk.calls call = some e) :
    os.perform call act disk = (.error e, disk.log call) := by
  rw [perform, refused]

theorem perform_of_granted {os : Os} {call : SysCall}
    {act : FileTree Str FileContent → Except IoError Unit × FileTree Str FileContent}
    {disk : Disk} (granted : os.refuses disk.calls call = none) :
    os.perform call act disk = ((act disk.tree).1, ⟨(act disk.tree).2, disk.calls ++ [call]⟩) := by
  rw [perform, granted]

/-- Create a directory and those above it. -/
def createDirAll (dir : Location) : Effect IoError Disk Unit :=
  os.perform (.createDirAll dir) fun tree =>
    if free : ∀ above ∈ dir.inits, tree.file? above = none then
      (.ok (), tree.makeDirs dir free)
    else
      (.error notDirectory, tree)

/-- Create an empty file, or empty one that exists. -/
def create (file : PathBuf) : Effect IoError Disk Unit := fun disk =>
  os.perform (.create file) (fun tree =>
    if inside : (locate file).dropLast ∈ tree.dirs then
      if free : locate file ∉ tree.dirs then
        (.ok (), tree.placeFile (locate file) ⟨[], os.now disk.calls⟩ inside free)
      else
        (.error (.other "Is a directory (os error 21)"), tree)
    else
      (.error .notFound, tree)) disk

/-- Fill a file that was created. -/
def writeAll (file : PathBuf) (octets : Octets) : Effect IoError Disk Unit := fun disk =>
  os.perform (.writeAll file) (fun tree =>
    if inside : (locate file).dropLast ∈ tree.dirs then
      if free : locate file ∉ tree.dirs then
        (.ok (), tree.placeFile (locate file) ⟨octets, os.now disk.calls⟩ inside free)
      else
        (.error (.other "Is a directory (os error 21)"), tree)
    else
      (.error .notFound, tree)) disk

def removeFile (file : PathBuf) : Effect IoError Disk Unit :=
  os.perform (.removeFile file) fun tree =>
    match tree.file? (locate file) with
    | some _ =>
      if file.getLast? = some ['.'] then (.error notDirectory, tree)
      else (.ok (), tree.eraseFile (locate file))
    | none => (.error .notFound, tree)

/-- Move a file, over one that stands at the target.  A file moved onto itself stays. -/
def rename (source target : PathBuf) : Effect IoError Disk Unit :=
  os.perform (.rename source target) fun tree =>
    match tree.file? (locate source) with
    | none => (.error .notFound, tree)
    | some content =>
      if source.getLast? = some ['.'] ∨ target.getLast? = some ['.'] then
        (.error notDirectory, tree)
      else if locate source = locate target then
        (.ok (), tree)
      else if inside : (locate target).dropLast ∈ tree.dirs then
        if free : locate target ∉ tree.dirs then
          (.ok (), tree.moveFile (locate source) (locate target) content inside free)
        else
          (.error (.other "Is a directory (os error 21)"), tree)
      else
        (.error .notFound, tree)

/-- Remove an empty directory. -/
def removeDir (dir : PathBuf) : Effect IoError Disk Unit :=
  os.perform (.removeDir dir) fun tree =>
    if locate dir ∉ tree.dirs then
      if (tree.file? (locate dir)).isSome then (.error notDirectory, tree)
      else (.error .notFound, tree)
    else if dir.getLast? = some ['.'] then
      (.error (.other "Invalid argument (os error 22)"), tree)
    else if tree.isBare (locate dir) then
      (.ok (), tree.removeTree (locate dir))
    else
      (.error (.other "Directory not empty (os error 39)"), tree)

/-- Remove a directory with everything below it.  Under a path that ends in a dot everything
below goes, and then the directory itself cannot be removed. -/
def removeDirAll (dir : PathBuf) : Effect IoError Disk Unit :=
  os.perform (.removeDirAll dir) fun tree =>
    if locate dir ∉ tree.dirs then
      if (tree.file? (locate dir)).isSome then (.error notDirectory, tree)
      else (.error .notFound, tree)
    else if dir.getLast? = some ['.'] then
      (.error (.other "Invalid argument (os error 22)"), tree.clear (locate dir))
    else
      (.ok (), tree.removeTree (locate dir))

end Os

/-! ## The store -/

/-- The path of a tenant's file. -/
def resolve (tenant path : Str) : Except RsError PathBuf := do
  let _ ← Router.validatePath path
  let _ ← Outcome.require (tenant ≠ [] ∧ tenant.all fun c => c ≠ '/' && c ≠ '\\' && c ≠ '.')
    (RsError.internal "invalid tenant id for file store")
  return tenant :: segments path

/-- A file name without its extension; a leading dot starts no extension. -/
def fileStem (name : Str) : Str :=
  match name.reverse.dropWhile (· ≠ '.') with
  | [] | ['.'] => name
  | _ :: stem => stem.reverse

/-- The path with the extension of its file name replaced. -/
def withExtension (path : PathBuf) (extension : Str) : PathBuf :=
  match (locate path).getLast? with
  | none => path
  | some name => (locate path).dropLast ++ [fileStem name ++ '.' :: extension]

namespace LocalFs

variable (os : Os) (tenant : Str)

def metaOf (path : PathBuf) (disk : Disk) : Except RsError FileMeta :=
  (disk.metadata path).mapError IoError.toRsError

/-- Create the directory that a path's file is in. -/
def createParent (path : PathBuf) : Effect RsError Disk Unit :=
  (os.createDirAll (locate path).dropLast).mapError IoError.toRsError

def head (path : Str) (disk : Disk) : Except RsError FileMeta := do
  let full ← resolve tenant path
  metaOf full disk

def read (path : Str) (disk : Disk) : Except RsError StoredFile := do
  let full ← resolve tenant path
  let found ← metaOf full disk
  let _ ← Outcome.require (found.isDir = false) (RsError.badRequest "path is a directory")
  match disk.tree.file? (locate full) with
  | some file =>
    return ⟨file.octets,
      some (natStr file.modified ++ '-' :: natStr file.octets.length)⟩
  | none => .error IoError.notFound.toRsError

/-- Fill the temporary file with the body; a failure takes the file away again. -/
def fill (tmp : PathBuf) (body : Body) : Effect RsError Disk Unit := do
  let filled ← Effect.attempt (do
    let octets ← Effect.ofExcept body.streamed
    (os.writeAll tmp octets).mapError IoError.toRsError)
  match filled with
  | .ok () => return ()
  | .error e =>
    let _ ← Effect.attempt (os.removeFile tmp)
    Effect.fail e

/-- Try to remove what stands in the way of a rename. -/
def clearWay (path : PathBuf) (existed : Bool) : Effect RsError Disk (Except IoError Unit) :=
  if existed then Effect.attempt (os.removeFile path) else pure (.ok ())

/-- Write to a temporary file beside the target, then move it there. -/
def write (path : Str) (body : Body) : Effect RsError Disk Bool := do
  let full ← Effect.ofExcept (resolve tenant path)
  createParent os full
  let existed ← Effect.reading fun disk => .ok (disk.metadata full).toBool
  let fresh ← Effect.reading fun disk => .ok (os.freshName disk.calls)
  let tmp := withExtension full (("rs2tmp-" : Str) ++ fresh)
  (os.create tmp).mapError IoError.toRsError
  fill os tmp body
  let _ ← clearWay os full existed
  (os.rename tmp full).mapError IoError.toRsError
  return !existed

def delete (path : Str) : Effect RsError Disk Unit := do
  let full ← Effect.ofExcept (resolve tenant path)
  let found ← Effect.reading (metaOf full)
  let _ ← Effect.ofExcept (Outcome.require (found.isDir = false)
    (RsError.badRequest "path is a directory; use directory delete"))
  (os.removeFile full).mapError IoError.toRsError

/-- The source of a move, which has to be a file. -/
def checkSource (path : PathBuf) (disk : Disk) : Except RsError Unit :=
  match disk.metadata path with
  | .error _ => .error (.notFound "source does not exist")
  | .ok found =>
    Outcome.require (found.isDir = false)
      (RsError.badRequest "source is a directory; file move only")

/-- Whether the target of a move exists; it may not be a directory. -/
def checkTarget (path : PathBuf) (disk : Disk) : Except RsError Bool :=
  match disk.metadata path with
  | .error _ => .ok false
  | .ok found =>
    if found.isDir then .error (.conflict "destination is a directory") else .ok true

/-- Remove what stands at the target, then move the source there. -/
def moveFile (src dst : PathBuf) : Effect RsError Disk Bool := do
  let _ ← Effect.reading (checkSource src)
  createParent os dst
  let existed ← Effect.reading (checkTarget dst)
  let _ ← clearWay os dst existed
  (os.rename src dst).mapError IoError.toRsError
  return !existed

def rename (source target : Str) : Effect RsError Disk Bool := do
  let src ← Effect.ofExcept (resolve tenant source)
  let dst ← Effect.ofExcept (resolve tenant target)
  moveFile os src dst

def deleteDir (path : Str) : Effect RsError Disk Unit := do
  let full ← Effect.ofExcept (resolve tenant path)
  (os.removeDir full).mapError fun
    | .notFound => .notFound "directory does not exist"
    | _ => .conflict "directory is not empty"

def deleteDirAll (path : Str) : Effect RsError Disk Unit := do
  let _ ← Effect.ofExcept (Outcome.require (segments path ≠ [])
    (RsError.badRequest "refusing to recursively delete the store root"))
  let full ← Effect.ofExcept (resolve tenant path)
  (os.removeDirAll full).mapError fun
    | .notFound => .notFound "directory does not exist"
    | e => .internal (("recursive delete failed: " : Str) ++ e.text)

/-- The store of one tenant. -/
def store : FileStore Disk where
  head := head tenant
  read := read tenant
  write := write os tenant
  delete := delete os tenant
  rename := rename os tenant
  deleteDir := deleteDir os tenant
  deleteDirAll := deleteDirAll os tenant

/-- The path that a path stands for under an optional root of the mount. -/
def rootedPath : Option Str → Str → Str
  | none, path => path
  | some root, path => joinPath (trimMatches (· = '/') root) path

/-- The store of a mount: the tenant's, or what lies below a root in it. -/
def mountStore : Option Str → FileStore Disk
  | none => store os tenant
  | some root => (store os tenant).prefixed root

/-- What a path of a mount leads to. -/
def placeOf (root : Option Str) (path : Str) : Location :=
  locate (tenant :: segments (rootedPath root path))

/-- What a resolved path leads to is below the tenant's directory. -/
theorem resolve_eq_ok {tenant path : Str} {full : PathBuf}
    (resolved : resolve tenant path = .ok full) :
    full = tenant :: segments path ∧ locate full = tenant :: locate (segments path) := by
  simp only [resolve, Outcome.bind_eq_ok, Outcome.require_eq_ok, Outcome.pure_eq_ok] at resolved
  obtain ⟨-, -, -, plain, rfl⟩ := resolved
  refine ⟨rfl, List.filter_cons_of_pos ?_⟩
  rw [decide_eq_true_eq]
  rintro rfl
  exact absurd plain.2 (by decide)

/-- Tenant t with a directory. -/
def tenantTree : FileTree Str FileContent :=
  FileTree.empty.makeDirs [("t" : Str)] (by decide +kernel)

/-- Tenant t with a file a. -/
def fileTree (octets : Octets) : FileTree Str FileContent :=
  tenantTree.placeFile [("t" : Str), "a"] ⟨octets, 0⟩ (by decide +kernel) (by decide +kernel)

/-- Tenant t with the files a and b. -/
def twoFiles : Disk where
  tree := (fileTree [1]).placeFile [("t" : Str), "b"] ⟨[2], 0⟩ (by decide +kernel)
    (by decide +kernel)
  calls := []

end LocalFs

end Rs2Runtime.Adapters
