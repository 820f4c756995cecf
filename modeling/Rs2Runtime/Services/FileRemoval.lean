import Rs2Runtime.Adapters.FileData
import Rs2Runtime.Adapters.LocalFs
import Rs2Runtime.Services.Data
import Rs2Runtime.Services.File

/-!
Contract: which directories a mount removes with everything below them.

Owns:
- the deletion of a dataset as the data service answers it over files;
- the calls that each operation of the local file store makes;
- when a recursive delete stays strictly below the directory of its mount.
-/

namespace Rs2Runtime.Adapters

open Text Data Capabilities

/-! ## Calls -/

/-- The calls made between two states of a disk all satisfy a predicate. -/
def Logged (allowed : SysCall → Prop) (before after : Disk) : Prop :=
  Grows allowed before.calls after.calls

variable {allowed : SysCall → Prop}

instance : IsPreorder Disk (Logged allowed) where
  refl disk := Grows.refl allowed disk.calls
  trans _ _ _ := Grows.trans

/-- A performed call is the only one that is logged. -/
theorem calls_perform (os : Os) (call : SysCall)
    (act : FileTree Str FileContent → Except IoError Unit × FileTree Str FileContent)
    (disk : Disk) : (os.perform call act disk).2.calls = disk.calls ++ [call] := by
  cases answer : os.refuses disk.calls call with
  | some e => rw [Os.perform_of_refused answer]; rfl
  | none => rw [Os.perform_of_granted answer]

theorem logged_perform {call : SysCall} (os : Os)
    (act : FileTree Str FileContent → Except IoError Unit × FileTree Str FileContent)
    (holds : allowed call) : Effect.Keeps (Logged allowed) (os.perform call act) := by
  intro disk
  rw [Logged, grows_iff_of_append (calls_perform os call act disk)]
  intro made member
  rw [List.mem_singleton.mp member]
  exact holds

namespace LocalFs

/-- The call removes no directory with what is below it. -/
def NotRecursive (call : SysCall) : Prop :=
  ∀ dir, call ≠ .removeDirAll dir

variable (os : Os) (tenant : Str)

theorem createParent_notRecursive (path : PathBuf) :
    Effect.Keeps (Logged NotRecursive) (createParent os path) :=
  Effect.keeps_mapError (logged_perform os _ nofun)

theorem removeFile_notRecursive (path : PathBuf) :
    Effect.Keeps (Logged NotRecursive) (os.removeFile path) :=
  logged_perform os _ nofun

theorem rename_notRecursive (source target : PathBuf) :
    Effect.Keeps (Logged NotRecursive) (os.rename source target) :=
  logged_perform os _ nofun

theorem create_notRecursive (path : PathBuf) :
    Effect.Keeps (Logged NotRecursive) (os.create path) :=
  fun disk => logged_perform os _ nofun disk

theorem writeAll_notRecursive (path : PathBuf) (octets : Octets) :
    Effect.Keeps (Logged NotRecursive) (os.writeAll path octets) :=
  fun disk => logged_perform os _ nofun disk

theorem clearWay_notRecursive (path : PathBuf) (existed : Bool) :
    Effect.Keeps (Logged NotRecursive) (clearWay os path existed) := by
  cases existed with
  | false => exact Effect.keeps_pure _
  | true => exact Effect.keeps_attempt (removeFile_notRecursive os path)

theorem fill_notRecursive (path : PathBuf) (body : Body) :
    Effect.Keeps (Logged NotRecursive) (fill os path body) := by
  refine Effect.keeps_bind (Effect.keeps_attempt (Effect.keeps_bind (Effect.keeps_ofExcept _)
    fun octets => Effect.keeps_mapError (writeAll_notRecursive os path octets))) fun filled => ?_
  cases filled with
  | ok done => exact Effect.keeps_pure _
  | error e =>
    exact Effect.keeps_bind (Effect.keeps_attempt (removeFile_notRecursive os path))
      fun _ => Effect.keeps_fail e

theorem store_write_notRecursive (path : Str) (body : Body) :
    Effect.Keeps (Logged NotRecursive) (write os tenant path body) :=
  Effect.keeps_bind (Effect.keeps_ofExcept _) fun full =>
    Effect.keeps_bind (createParent_notRecursive os full) fun _ =>
      Effect.keeps_bind (Effect.keeps_reading _) fun existed =>
        Effect.keeps_bind (Effect.keeps_reading _) fun _ =>
          Effect.keeps_bind (Effect.keeps_mapError (create_notRecursive os _)) fun _ =>
            Effect.keeps_bind (fill_notRecursive os _ body) fun _ =>
              Effect.keeps_bind (clearWay_notRecursive os full existed) fun _ =>
                Effect.keeps_bind (Effect.keeps_mapError (rename_notRecursive os _ full))
                  fun _ => Effect.keeps_pure _

theorem store_rename_notRecursive (source target : Str) :
    Effect.Keeps (Logged NotRecursive) (rename os tenant source target) :=
  Effect.keeps_bind (Effect.keeps_ofExcept _) fun src =>
    Effect.keeps_bind (Effect.keeps_ofExcept _) fun dst =>
      Effect.keeps_bind (Effect.keeps_reading _) fun _ =>
        Effect.keeps_bind (createParent_notRecursive os dst) fun _ =>
          Effect.keeps_bind (Effect.keeps_reading _) fun existed =>
            Effect.keeps_bind (clearWay_notRecursive os dst existed) fun _ =>
              Effect.keeps_bind (Effect.keeps_mapError (rename_notRecursive os src dst))
                fun _ => Effect.keeps_pure _

theorem store_delete_notRecursive (path : Str) :
    Effect.Keeps (Logged NotRecursive) (delete os tenant path) :=
  Effect.keeps_bind (Effect.keeps_ofExcept _) fun full =>
    Effect.keeps_bind (Effect.keeps_reading _) fun _ =>
      Effect.keeps_bind (Effect.keeps_ofExcept _) fun _ =>
        Effect.keeps_mapError (removeFile_notRecursive os full)

theorem store_deleteDir_notRecursive (path : Str) :
    Effect.Keeps (Logged NotRecursive) (deleteDir os tenant path) :=
  Effect.keeps_bind (Effect.keeps_ofExcept _) fun _ =>
    Effect.keeps_mapError (logged_perform os _ nofun)

theorem mountStore_notRecursive (root : Option Str) :
    (mountStore os tenant root).Keeps (Logged NotRecursive) := by
  have plain : (store os tenant).Keeps (Logged NotRecursive) :=
    ⟨store_write_notRecursive os tenant, store_delete_notRecursive os tenant,
      store_rename_notRecursive os tenant, store_deleteDir_notRecursive os tenant⟩
  cases root with
  | none => exact plain
  | some root => exact plain.prefixed root

/-! ## Recursive deletes -/

/-- Every directory removed with everything below it lies strictly below a location. -/
def RemovesBelow (base : Location) : Disk → Disk → Prop :=
  Logged fun call => ∀ dir, call = .removeDirAll dir → base <+: locate dir ∧ base ≠ locate dir

variable {os tenant}

theorem removesBelow_of_notRecursive {base : Location} {before after : Disk}
    (logged : Logged NotRecursive before after) : RemovesBelow base before after := by
  obtain ⟨calls, made, plain⟩ := logged
  exact ⟨calls, made, fun call member dir recursive => absurd recursive (plain call member dir)⟩

/-- One recursive delete is below a location exactly when its directory is. -/
theorem removesBelow_iff_of_calls {base : Location} {before after : Disk} {dir : PathBuf}
    (made : after.calls = before.calls ++ [.removeDirAll dir]) :
    RemovesBelow base before after ↔ base <+: locate dir ∧ base ≠ locate dir := by
  rw [RemovesBelow, Logged, grows_iff_of_append made]
  constructor
  · intro below
    exact below _ (List.mem_singleton_self _) dir rfl
  · rintro below call member other rfl
    cases List.mem_singleton.mp member
    exact below

/-- The places of a mount lie below the place of its root. -/
theorem placeOf_eq_append (tenant : Str) (root : Option Str) (path : Str) :
    placeOf tenant root path = placeOf tenant root [] ++ locate (segments path) := by
  unfold placeOf
  cases root with
  | none =>
    simp only [rootedPath, segments_nil, locate]
    rw [← List.filter_append, List.singleton_append]
  | some root =>
    simp only [rootedPath, segments_joinPath, segments_nil, List.append_nil, locate]
    rw [← List.filter_append, List.cons_append]

theorem locate_eq_nil {path : PathBuf} :
    locate path = [] ↔ ∀ component ∈ path, component = ['.'] := by
  simp [locate, List.filter_eq_nil_iff]

/-- A recursive delete of a mount's store stays strictly below the mount exactly when it is
turned down or its path has a component that is not a dot. -/
theorem deleteDirAll_removesBelow_iff (os : Os) (tenant : Str) (root : Option Str) {path : Str}
    (named : segments path ≠ []) (disk : Disk) :
    RemovesBelow (placeOf tenant root []) disk
        ((mountStore os tenant root).deleteDirAll path disk).2 ↔
      ¬ ((∃ full, resolve tenant (rootedPath root path) = .ok full) ∧
        ∀ segment ∈ segments path, segment = ['.']) := by
  have unfolded : (mountStore os tenant root).deleteDirAll path =
      deleteDirAll os tenant (rootedPath root path) := by
    cases root <;> rfl
  have guarded : segments (rootedPath root path) ≠ [] := by
    cases root with
    | none => exact named
    | some root =>
      rw [rootedPath, segments_joinPath]
      exact List.append_ne_nil_of_right_ne_nil _ named
  have passes : Outcome.require (segments (rootedPath root path) ≠ [])
      (RsError.badRequest "refusing to recursively delete the store root") = .ok () :=
    Outcome.require_eq_ok.mpr guarded
  rw [unfolded, deleteDirAll, passes, Effect.bind_of_ok (Effect.ofExcept_run _ _)]
  rcases resolved : resolve tenant (rootedPath root path) with e | full
  · rw [Effect.bind_of_error (Effect.ofExcept_run _ _)]
    exact iff_of_true (removesBelow_of_notRecursive (refl disk)) (by rintro ⟨⟨full, found⟩, -⟩; cases found)
  · rw [Effect.bind_of_ok (Effect.ofExcept_run _ _), Effect.mapError_run, Os.removeDirAll,
      removesBelow_iff_of_calls (calls_perform os _ _ disk)]
    have place : locate full = placeOf tenant root [] ++ locate (segments path) := by
      rw [(resolve_eq_ok resolved).1, ← placeOf_eq_append, placeOf]
    rw [place, ← locate_eq_nil]
    constructor
    · rintro ⟨-, strict⟩ ⟨-, dots⟩
      rw [dots, List.append_nil] at strict
      exact strict rfl
    · intro some_
      refine ⟨List.prefix_append _ _, fun same => some_ ⟨⟨full, rfl⟩, ?_⟩⟩
      exact List.append_cancel_left (same.symm.trans (List.append_nil _).symm)

end LocalFs

end Rs2Runtime.Adapters

namespace Rs2Runtime.Services

open Text Data Capabilities Adapters
open Adapters.LocalFs
open Data.Outcome (require)

/-- Delete a dataset that is kept in files, confirmed by its name. -/
def DataService.removeDatasetFiles {σ : Type} (store : FileStore σ) (msg : Message)
    (dataset : Str) : Effect RsError σ Message := do
  let _ ← Effect.ofExcept (require (writePrecondition msg = .none)
    (RsError.badRequest "conditional headers are not supported on dataset deletes"))
  let _ ← Effect.ofExcept (require (msg.url.queryParam "confirm" = some dataset)
    (RsError.conflict (("dataset delete requires '?confirm=" : Str) ++ dataset ++ ("'" : Str))))
  let _ ← FileData.deleteDataset store dataset
  return msg.noContent

/-- The requests that may end in a recursive delete: those to a file mount, and the deletes
of a dataset, which is the only segment of its path. -/
inductive Removal where
  | file (service : FileService) (host : FileHost Disk) (msg : Message)
  | dataset (msg : Message) (name : Str) (addressed : msg.url.serviceSegments = [name])

namespace Removal

def run (store : FileStore Disk) : Removal → Effect RsError Disk Message
  | .file service host msg => service.handle host store msg
  | .dataset msg name _ => DataService.removeDatasetFiles store msg name

/-- The directory a request addresses, as a path of the store. -/
def path : Removal → Str
  | .file _ _ msg => msg.url.servicePath
  | .dataset _ name _ => FileData.datasetDir name

/-- The request asks for a recursive delete and confirms it. -/
def Confirmed : Removal → Prop
  | .file _ _ msg => FileService.ConfirmedDelete msg
  | .dataset msg name _ =>
    writePrecondition msg = .none ∧ msg.url.queryParam "confirm" = some name

/-- A confirmed request does what the store's recursive delete does. -/
theorem run_of_confirmed {removal : Removal} (confirmed : removal.Confirmed)
    (store : FileStore Disk) (disk : Disk) :
    (removal.run store disk).2 = (store.deleteDirAll removal.path disk).2 := by
  cases removal with
  | file service host msg => exact FileService.handle_of_confirmedDelete confirmed disk
  | dataset msg name addressed =>
    have unconditional : require (writePrecondition msg = .none) (RsError.badRequest
        "conditional headers are not supported on dataset deletes") = .ok () :=
      Outcome.require_eq_ok.mpr confirmed.1
    have named : require (msg.url.queryParam "confirm" = some name) (RsError.conflict
        (("dataset delete requires '?confirm=" : Str) ++ name ++ ("'" : Str))) = .ok () :=
      Outcome.require_eq_ok.mpr confirmed.2
    rw [run, DataService.removeDatasetFiles, unconditional,
      Effect.bind_of_ok (Effect.ofExcept_run _ _), named,
      Effect.bind_of_ok (Effect.ofExcept_run _ _), Effect.bind_pure_run]
    rfl

/-- Any other request makes no recursive delete. -/
theorem run_of_not_confirmed {removal : Removal} (unconfirmed : ¬ removal.Confirmed) (os : Os)
    (tenant : Str) (root : Option Str) (disk : Disk) :
    Logged NotRecursive disk (removal.run (mountStore os tenant root) disk).2 := by
  cases removal with
  | file service host msg =>
    exact FileService.handle_keeps (mountStore_notRecursive os tenant root) unconfirmed disk
  | dataset msg name addressed =>
    rw [run, DataService.removeDatasetFiles]
    by_cases plain : writePrecondition msg = .none
    · have other : msg.url.queryParam "confirm" ≠ some name := fun named =>
        unconfirmed ⟨plain, named⟩
      rw [Effect.bind_of_ok (by rw [Effect.ofExcept_run, require, if_pos plain]),
        Effect.bind_of_error (by rw [Effect.ofExcept_run, require, if_neg other])]
      exact refl disk
    · rw [Effect.bind_of_error (by rw [Effect.ofExcept_run, require, if_neg plain])]
      exact refl disk

theorem segments_path_ne_nil {removal : Removal} (confirmed : removal.Confirmed) :
    segments removal.path ≠ [] := by
  cases removal with
  | file service host msg =>
    intro empty
    have slashes := eq_slash_of_segments_eq_nil empty
    have trimmed : msg.url.servicePath.rdropWhile (· = '/') = [] :=
      List.rdropWhile_eq_nil_iff.mpr fun c member => by simpa using slashes c member
    refine FileService.ConfirmedDelete.named confirmed ?_
    rw [dirName, trimmed, List.splitOn_nil]
    rfl
  | dataset msg name addressed =>
    have listed : name ∈ segments msg.url.servicePath := by
      rw [← MsgUrl.serviceSegments, addressed]
      exact List.mem_singleton_self _
    rw [path, FileData.datasetDir, List.cons_append, segments_slash_cons,
      segments_append_slash, segments_of_mem_segments listed]
    exact List.cons_ne_nil _ _

end Removal

/-- What a request removes with everything below it lies strictly below the directory of its
mount, except when it confirms the delete of a path that is all dots. -/
theorem recursive_delete_below_root_iff (os : Os) (tenant : Str) (root : Option Str)
    (removal : Removal) (disk : Disk) :
    RemovesBelow (placeOf tenant root []) disk
        (removal.run (mountStore os tenant root) disk).2 ↔
      ¬ (removal.Confirmed ∧ (∃ full, resolve tenant (rootedPath root removal.path) = .ok full) ∧
        ∀ segment ∈ segments removal.path, segment = ['.']) := by
  by_cases confirmed : removal.Confirmed
  · rw [Removal.run_of_confirmed confirmed, deleteDirAll_removesBelow_iff os tenant root
      (Removal.segments_path_ne_nil confirmed)]
    rw [and_iff_right confirmed]
  · refine iff_of_true (removesBelow_of_notRecursive ?_) fun reached => confirmed reached.1
    exact Removal.run_of_not_confirmed confirmed os tenant root disk

def dotDirectory : Removal :=
  .file ⟨.default⟩ (FileService.plainHost Disk)
    (FileService.requestTo .delete "/./?confirm=." [])

def dotDataset : Removal :=
  .dataset (FileService.requestTo .delete "/.?confirm=." []) ['.'] (by decide +kernel)

/-- The directory and the dataset named by a dot are the mount itself, and deleting them
leaves none of its files. -/
theorem dot_removes_root :
    (¬ RemovesBelow (placeOf "t" none []) twoFiles
        (dotDirectory.run (mountStore (Os.refusing []) "t" none) twoFiles).2 ∧
      (dotDirectory.run (mountStore (Os.refusing []) "t" none) twoFiles).2.tree.files = []) ∧
    ¬ RemovesBelow (placeOf "t" none []) twoFiles
        (dotDataset.run (mountStore (Os.refusing []) "t" none) twoFiles).2 ∧
      (dotDataset.run (mountStore (Os.refusing []) "t" none) twoFiles).2.tree.files = [] := by
  have directoryCalls :
      (dotDirectory.run (mountStore (Os.refusing []) "t" none) twoFiles).2.calls =
        twoFiles.calls ++ [.removeDirAll [("t" : Str), "."]] := by
    decide +kernel
  have datasetCalls :
      (dotDataset.run (mountStore (Os.refusing []) "t" none) twoFiles).2.calls =
        twoFiles.calls ++ [.removeDirAll [("t" : Str), "."]] := by
    decide +kernel
  rw [removesBelow_iff_of_calls directoryCalls, removesBelow_iff_of_calls datasetCalls]
  decide +kernel

end Rs2Runtime.Services
