import Rs2Runtime.Adapters.LocalFs
import Rs2Runtime.Services.File

/-!
Contract: what a move does to the files on the disk.

Owns:
- what each call of a move does to the files, refused or not;
- when a move loses a file: it removes what stands at its destination and then fails to put
  the source there;
- the equivalence of keeping all content with that not happening.

Does not own: directories a failed move leaves behind.
-/

variable {before : Disk}

namespace Rs2Runtime.Adapters

open Text Data Capabilities Services

/-! ## Files under a path -/

/-- A path leads to a file. -/
def Disk.IsFile (disk : Disk) (path : PathBuf) : Prop :=
  (disk.tree.file? (locate path)).isSome ∧ path.getLast? ≠ some ['.']

instance (disk : Disk) (path : PathBuf) : Decidable (disk.IsFile path) :=
  inferInstanceAs (Decidable (_ ∧ _))

namespace LocalFs

variable {disk between after : Disk} {path src dst : PathBuf}

theorem metadata_of_isFile (file : disk.IsFile path) :
    ∃ size, disk.metadata path = .ok ⟨size, false⟩ := by
  obtain ⟨content, found⟩ := Option.isSome_iff_exists.mp file.1
  refine ⟨content.octets.length, ?_⟩
  simp only [Disk.metadata]
  rw [if_neg (FileTree.not_mem_dirs found), found]
  exact if_neg file.2

theorem isFile_of_metadata {found : FileMeta} (known : disk.metadata path = .ok found)
    (plain : found.isDir = false) : disk.IsFile path := by
  simp only [Disk.metadata] at known
  by_cases listed : locate path ∈ disk.tree.dirs
  · rw [if_pos listed] at known
    cases known
    cases plain
  · rw [if_neg listed] at known
    cases content : disk.tree.file? (locate path) with
    | none =>
      simp only [content] at known
      split at known <;> cases known
    | some file =>
      simp only [content] at known
      by_cases dotted : path.getLast? = some ['.']
      · rw [if_pos dotted] at known
        cases known
      · exact ⟨by rw [content]; rfl, dotted⟩

/-- A move's source is accepted exactly when it is a file. -/
theorem checkSource_eq_ok : checkSource path disk = .ok () ↔ disk.IsFile path := by
  constructor
  · intro accepted
    unfold checkSource at accepted
    split at accepted
    · cases accepted
    · rename_i found known
      exact isFile_of_metadata known (Outcome.require_eq_ok.mp accepted)
  · intro file
    obtain ⟨size, known⟩ := metadata_of_isFile file
    rw [checkSource, known]
    exact Outcome.require_eq_ok.mpr rfl

/-- A move's target exists exactly when it is a file. -/
theorem checkTarget_eq_ok {existed : Bool} (accepted : checkTarget path disk = .ok existed) :
    existed = true ↔ disk.IsFile path := by
  unfold checkTarget at accepted
  split at accepted
  · rename_i e missing
    cases accepted
    refine ⟨nofun, fun file => ?_⟩
    obtain ⟨size, known⟩ := metadata_of_isFile file
    rw [known] at missing
    cases missing
  · rename_i found known
    split at accepted
    · cases accepted
    · rename_i plain
      cases accepted
      exact ⟨fun _ => isFile_of_metadata known (by simpa using plain), fun _ => rfl⟩

theorem checkTarget_of_isFile (file : disk.IsFile path) : checkTarget path disk = .ok true := by
  obtain ⟨size, known⟩ := metadata_of_isFile file
  rw [checkTarget, known]
  rfl

/-! ## The calls of a move -/

variable {os : Os}

/-- Creating directories leaves the files. -/
theorem file?_createParent (os : Os) (path : PathBuf) (disk : Disk) (location : Location) :
    (createParent os path disk).2.tree.file? location = disk.tree.file? location := by
  unfold createParent Os.createDirAll
  rw [Effect.mapError_run]
  cases answer : os.refuses disk.calls (.createDirAll (locate path).dropLast) with
  | some e => rw [Os.perform_of_refused answer]; rfl
  | none =>
    rw [Os.perform_of_granted answer]
    dsimp only
    split <;> rfl

/-- The directory of an existing file can be created unless the system refuses. -/
theorem createParent_of_isFile (file : disk.IsFile path) (named : locate path ≠ [])
    (granted : os.refuses disk.calls (.createDirAll (locate path).dropLast) = none) :
    ∃ tree, createParent os path disk =
      (.ok (), ⟨tree, disk.calls ++ [.createDirAll (locate path).dropLast]⟩) := by
  obtain ⟨content, found⟩ := Option.isSome_iff_exists.mp file.1
  have free : ∀ above ∈ (locate path).dropLast.inits, disk.tree.file? above = none := by
    intro above member
    have inside := (List.mem_inits _ _).mp member
    refine FileTree.file?_eq_none_of_above found (inside.trans (List.dropLast_prefix _)) ?_
    rintro rfl
    have shorter := inside.length_le
    rw [List.length_dropLast] at shorter
    have longer := List.length_pos_iff.mpr named
    omega
  refine ⟨disk.tree.makeDirs _ free, ?_⟩
  rw [createParent, Effect.mapError_run, Os.createDirAll, Os.perform_of_granted granted]
  simp only [dif_pos free, Except.mapError]

theorem granted_of_createParent (created : (createParent os path disk).1 = .ok ()) :
    os.refuses disk.calls (.createDirAll (locate path).dropLast) = none ∧
      (createParent os path disk).2.calls =
        disk.calls ++ [.createDirAll (locate path).dropLast] := by
  unfold createParent Os.createDirAll at created ⊢
  rw [Effect.mapError_run] at created ⊢
  cases answer : os.refuses disk.calls (.createDirAll (locate path).dropLast) with
  | some e =>
    rw [Os.perform_of_refused answer] at created
    cases created
  | none =>
    rw [Os.perform_of_granted answer]
    exact ⟨rfl, rfl⟩

theorem removeFile_of_granted (file : disk.IsFile path)
    (granted : os.refuses disk.calls (.removeFile path) = none) :
    (os.removeFile path disk).2 =
      ⟨disk.tree.eraseFile (locate path), disk.calls ++ [.removeFile path]⟩ := by
  obtain ⟨content, found⟩ := Option.isSome_iff_exists.mp file.1
  rw [Os.removeFile, Os.perform_of_granted granted]
  simp only [found, if_neg file.2]

/-- A rename fails and leaves the files, or moves the source over the target. -/
theorem rename_cases (os : Os) (source target : PathBuf) (disk : Disk) :
    (∃ e, (os.rename source target disk).1 = .error e ∧
      ∀ location, (os.rename source target disk).2.tree.file? location =
        disk.tree.file? location) ∨
    (os.rename source target disk).1 = .ok () ∧
      ∃ content, disk.tree.file? (locate source) = some content ∧
        ∀ location, (os.rename source target disk).2.tree.file? location =
          if location = locate target then some content
          else if location = locate source then none
          else disk.tree.file? location := by
  unfold Os.rename
  cases answer : os.refuses disk.calls (.rename source target) with
  | some e =>
    rw [Os.perform_of_refused answer]
    exact .inl ⟨e, rfl, fun _ => rfl⟩
  | none =>
    rw [Os.perform_of_granted answer]
    cases found : disk.tree.file? (locate source) with
    | none => exact .inl ⟨.notFound, rfl, fun _ => rfl⟩
    | some content =>
      dsimp only
      split
      · exact .inl ⟨notDirectory, rfl, fun _ => rfl⟩
      split
      · rename_i same
        refine .inr ⟨rfl, content, rfl, fun location => ?_⟩
        by_cases at_ : location = locate target
        · rw [if_pos at_, at_, ← same, found]
        · rw [if_neg at_, if_neg (by rwa [same])]
      split
      · rename_i inside
        split
        · rename_i free
          exact .inr ⟨rfl, content, rfl, FileTree.file?_moveFile _ _ _ content inside free⟩
        · exact .inl ⟨_, rfl, fun _ => rfl⟩
      · exact .inl ⟨_, rfl, fun _ => rfl⟩

/-- A rename into an existing directory, where no directory is in the way, is only failed by
the system. -/
theorem rename_of_granted {source target : PathBuf} (file : disk.IsFile source)
    (undotted : target.getLast? ≠ some ['.']) (inside : (locate target).dropLast ∈ disk.tree.dirs)
    (free : locate target ∉ disk.tree.dirs)
    (granted : os.refuses disk.calls (.rename source target) = none) :
    (os.rename source target disk).1 = .ok () := by
  obtain ⟨content, found⟩ := Option.isSome_iff_exists.mp file.1
  rw [Os.rename, Os.perform_of_granted granted]
  simp only [found]
  rw [if_neg (not_or.mpr ⟨file.2, undotted⟩)]
  split <;> rfl

/-! ## Moves -/

/-- A move that keeps all content: the target has what the source had, and the rest, or
everything where both are the same file, is as it was. -/
structure Moved (source target : Location) (before after : Disk) : Prop where
  arrived : ∃ octets, before.content source = some octets ∧ after.content target = some octets
  frame : ∀ location, location ≠ source → location ≠ target →
    after.content location = before.content location
  still : source = target → ∀ location, after.content location = before.content location

/-- A result that keeps all content: it moved, or it failed and everything is as it was. -/
structure KeepsContent {α : Type} (source target : Location) (before : Disk)
    (result : Except RsError α × Disk) : Prop where
  moved : ∀ value, result.1 = .ok value → Moved source target before result.2
  failed : ∀ e, result.1 = .error e →
    ∀ location, result.2.content location = before.content location

/-- The move removes the file at its destination and then does not get to put the source
there: it is the same file, or the system refuses. -/
structure LosesTarget (os : Os) (disk : Disk) (src dst : PathBuf) : Prop where
  source : disk.IsFile src
  target : disk.IsFile dst
  parent : os.refuses disk.calls (.createDirAll (locate dst).dropLast) = none
  removal : os.refuses (disk.calls ++ [.createDirAll (locate dst).dropLast])
    (.removeFile dst) = none
  rename : locate src = locate dst ∨
    (os.refuses (disk.calls ++ [.createDirAll (locate dst).dropLast, .removeFile dst])
      (.rename src dst)).isSome

/-- The disk that a move renames on. -/
def cleared (os : Os) (dst : PathBuf) (existed : Bool) (disk : Disk) : Disk :=
  if existed then (os.removeFile dst disk).2 else disk

/-- A move whose checks pass ends in the rename. -/
theorem moveFile_of_checked {existed : Bool} (source : checkSource src disk = .ok ())
    (created : createParent os dst disk = (.ok (), between))
    (target : checkTarget dst between = .ok existed) :
    moveFile os src dst disk =
      (((os.rename src dst (cleared os dst existed between)).1.mapError
          IoError.toRsError).map (fun _ => !existed),
        (os.rename src dst (cleared os dst existed between)).2) := by
  rw [moveFile, Effect.bind_of_ok (by rw [Effect.reading_run, source]),
    Effect.bind_of_ok created, Effect.bind_of_ok (by rw [Effect.reading_run, target])]
  cases existed with
  | false =>
    rw [clearWay, if_neg (by decide), Effect.bind_of_ok (Effect.pure_run _ _)]
    exact Effect.bind_pure_run _ _ between
  | true =>
    rw [clearWay, if_pos rfl, Effect.bind_of_ok (Effect.attempt_run _ _)]
    exact Effect.bind_pure_run _ _ _

theorem content_congr {location location' : Location}
    (same : after.tree.file? location = before.tree.file? location') :
    after.content location = before.content location' := by
  rw [Disk.content, Disk.content, same]

theorem isFile_congr (same : ∀ location, after.tree.file? location = before.tree.file? location) :
    after.IsFile path ↔ before.IsFile path := by
  rw [Disk.IsFile, Disk.IsFile, same]

theorem moved_of_file? {source target : Location} {content : FileContent}
    (found : before.tree.file? source = some content)
    (files : ∀ location, after.tree.file? location =
      if location = target then some content
      else if location = source then none
      else before.tree.file? location) :
    Moved source target before after where
  arrived := by
    refine ⟨content.octets, ?_, ?_⟩
    · rw [Disk.content, found]
      rfl
    · rw [Disk.content, files, if_pos rfl]
      rfl
  frame := by
    intro location notSource notTarget
    refine content_congr ?_
    rw [files, if_neg notTarget, if_neg notSource]
  still := by
    rintro rfl location
    refine content_congr ?_
    rw [files]
    by_cases at_ : location = source
    · rw [if_pos at_, at_, found]
    · rw [if_neg at_, if_neg at_]

/-- A rename on files that are still as they were keeps all content. -/
theorem keepsContent_of_rename {α : Type}
    (same : ∀ location, between.tree.file? location = disk.tree.file? location) (f : Unit → α) :
    KeepsContent (locate src) (locate dst) disk
      (((os.rename src dst between).1.mapError IoError.toRsError).map f,
        (os.rename src dst between).2) := by
  rcases rename_cases os src dst between with ⟨e, failed, kept⟩ | ⟨done, content, found, files⟩
  · refine ⟨fun value succeeded => ?_, fun _ _ location => content_congr ((kept location).trans
      (same location))⟩
    rw [failed] at succeeded
    cases succeeded
  · refine ⟨fun _ _ => moved_of_file? ((same _).symm.trans found) fun location => ?_, fun e failed => ?_⟩
    · rw [files, same]
    · rw [done] at failed
      cases failed

/-- A failure on unchanged files keeps all content. -/
theorem keepsContent_of_error {α : Type} {source target : Location} {e : RsError}
    (same : ∀ location, after.tree.file? location = disk.tree.file? location) :
    KeepsContent source target disk ((.error e : Except RsError α), after) := by
  refine ⟨fun value succeeded => ?_, fun _ _ location => content_congr (same location)⟩
  cases succeeded

/-- A move that loses its target fails without a file at it. -/
theorem not_keepsContent_of_losesTarget (named : locate dst ≠ [])
    (loses : LosesTarget os disk src dst) :
    ¬ KeepsContent (locate src) (locate dst) disk (moveFile os src dst disk) := by
  intro keeps
  obtain ⟨tree, created⟩ := createParent_of_isFile loses.target named loses.parent
  have same : ∀ location, tree.file? location = disk.tree.file? location := by
    intro location
    have kept := file?_createParent os dst disk location
    rwa [created] at kept
  have target : Disk.IsFile ⟨tree, disk.calls ++ [.createDirAll (locate dst).dropLast]⟩ dst :=
    (isFile_congr same).mpr loses.target
  have evaluated := moveFile_of_checked (checkSource_eq_ok.mpr loses.source) created
    (checkTarget_of_isFile target)
  rw [cleared, if_pos rfl, removeFile_of_granted target loses.removal, List.append_assoc,
    List.singleton_append] at evaluated
  have gone : (tree.eraseFile (locate dst)).file? (locate dst) = none := by
    rw [FileTree.file?_eraseFile, if_pos rfl]
  rcases rename_cases os src dst ⟨tree.eraseFile (locate dst), disk.calls ++
    [.createDirAll (locate dst).dropLast, .removeFile dst]⟩ with
      ⟨e, failed, kept⟩ | ⟨done, content, found, files⟩
  · have restored := keeps.failed e.toRsError (by rw [evaluated, failed]; rfl) (locate dst)
    rw [evaluated, Disk.content, kept, gone, Disk.content] at restored
    obtain ⟨content, found⟩ := Option.isSome_iff_exists.mp loses.target.1
    rw [found] at restored
    cases restored
  · rcases loses.rename with sameFile | refused
    · rw [sameFile, gone] at found
      cases found
    · obtain ⟨e, answer⟩ := Option.isSome_iff_exists.mp refused
      rw [Os.rename, Os.perform_of_refused answer] at done
      cases done

/-- A rename that the system grants, on files from which only its target was removed, keeps
all content. -/
theorem keepsContent_of_cleared {α : Type}
    (same : ∀ location, between.tree.file? location = disk.tree.file? location)
    (source : disk.IsFile src) (target : between.IsFile dst) (named : locate dst ≠ [])
    (apart : locate src ≠ locate dst)
    (granted : os.refuses (between.calls ++ [.removeFile dst]) (.rename src dst) = none)
    (f : Unit → α) :
    KeepsContent (locate src) (locate dst) disk
      (((os.rename src dst ⟨between.tree.eraseFile (locate dst),
            between.calls ++ [.removeFile dst]⟩).1.mapError IoError.toRsError).map f,
        (os.rename src dst ⟨between.tree.eraseFile (locate dst),
          between.calls ++ [.removeFile dst]⟩).2) := by
  obtain ⟨replaced, found⟩ := Option.isSome_iff_exists.mp target.1
  have elsewhere : ∀ location, location ≠ locate dst →
      (between.tree.eraseFile (locate dst)).file? location = disk.tree.file? location := by
    intro location notTarget
    rw [FileTree.file?_eraseFile, if_neg notTarget, same]
  have remains : Disk.IsFile ⟨between.tree.eraseFile (locate dst),
      between.calls ++ [.removeFile dst]⟩ src :=
    ⟨by rw [elsewhere _ apart]; exact source.1, source.2⟩
  have inside : (locate dst).dropLast ∈ (between.tree.eraseFile (locate dst)).dirs := by
    rw [FileTree.dirs_eraseFile]
    exact FileTree.dropLast_mem_dirs found named
  have free : locate dst ∉ (between.tree.eraseFile (locate dst)).dirs := by
    rw [FileTree.dirs_eraseFile]
    exact FileTree.not_mem_dirs found
  have done := rename_of_granted remains target.2 inside free granted
  rcases rename_cases os src dst ⟨between.tree.eraseFile (locate dst),
    between.calls ++ [.removeFile dst]⟩ with ⟨e, failed, -⟩ | ⟨-, content, moved, files⟩
  · rw [done] at failed
    cases failed
  · have held : disk.tree.file? (locate src) = some content := by
      rw [← elsewhere _ apart]
      exact moved
    refine ⟨fun _ _ => moved_of_file? held fun location => ?_, fun e failed => ?_⟩
    · rw [files]
      by_cases atTarget : location = locate dst
      · rw [if_pos atTarget, if_pos atTarget]
      · rw [if_neg atTarget, if_neg atTarget, elsewhere _ atTarget]
    · rw [done] at failed
      cases failed

theorem keepsContent_of_not_losesTarget (named : locate dst ≠ [])
    (safe : ¬ LosesTarget os disk src dst) :
    KeepsContent (locate src) (locate dst) disk (moveFile os src dst disk) := by
  rcases source : checkSource src disk with e | _
  · rw [moveFile, Effect.bind_of_error (by rw [Effect.reading_run, source])]
    exact keepsContent_of_error fun _ => rfl
  rcases created : createParent os dst disk with ⟨e | _, between⟩
  all_goals
    have same : ∀ location, between.tree.file? location = disk.tree.file? location := by
      intro location
      have kept := file?_createParent os dst disk location
      rwa [created] at kept
  · rw [moveFile, Effect.bind_of_ok (by rw [Effect.reading_run, source]),
      Effect.bind_of_error created]
    exact keepsContent_of_error same
  rcases target : checkTarget dst between with e | existed
  · rw [moveFile, Effect.bind_of_ok (by rw [Effect.reading_run, source]),
      Effect.bind_of_ok created, Effect.bind_of_error (by rw [Effect.reading_run, target])]
    exact keepsContent_of_error same
  rw [moveFile_of_checked source created target]
  cases existed with
  | false => exact keepsContent_of_rename same _
  | true =>
    rw [cleared, if_pos rfl]
    have targetFile : between.IsFile dst := (checkTarget_eq_ok target).mp rfl
    have granted := granted_of_createParent (by rw [created] : (createParent os dst disk).1 = .ok ())
    rw [created] at granted
    -- Only a removal that goes through changes what the rename works on.
    cases removal : os.refuses between.calls (.removeFile dst) with
    | some e =>
      have logged : ∀ location, (between.log (.removeFile dst)).tree.file? location =
          disk.tree.file? location := same
      rw [Os.removeFile, Os.perform_of_refused removal]
      exact keepsContent_of_rename logged _
    | none =>
      rw [removeFile_of_granted targetFile removal]
      have sourceFile := checkSource_eq_ok.mp source
      have unlost : ¬ (locate src = locate dst ∨ (os.refuses
          (disk.calls ++ [.createDirAll (locate dst).dropLast, .removeFile dst])
          (.rename src dst)).isSome) := fun lost =>
        safe ⟨sourceFile, (isFile_congr same).mp targetFile, granted.1,
          by rw [← granted.2]; exact removal, lost⟩
      have apart : locate src ≠ locate dst := fun sameFile => unlost (.inl sameFile)
      exact keepsContent_of_cleared same sourceFile targetFile named apart
        (by
          rw [granted.2, List.append_assoc, List.singleton_append]
          exact Option.not_isSome_iff_eq_none.mp fun refused => unlost (.inr refused))
        _

/-- A move keeps all content exactly when it does not lose its target. -/
theorem moveFile_keepsContent_iff (named : locate dst ≠ []) :
    KeepsContent (locate src) (locate dst) disk (moveFile os src dst disk) ↔
      ¬ LosesTarget os disk src dst :=
  ⟨fun keeps loses => not_keepsContent_of_losesTarget named loses keeps,
    keepsContent_of_not_losesTarget named⟩

end LocalFs

end Rs2Runtime.Adapters

namespace Rs2Runtime.Services.FileService

open Text Data Capabilities Adapters
open Adapters.LocalFs

/-- Every result of a move request keeps all content: a success moves the file of the request
path to the mapped destination, a failure changes no file. -/
structure MoveKeepsContent (tenant : Str) (root : Option Str) (msg : Message) (before : Disk)
    (result : Except RsError Message × Disk) : Prop where
  moved : ∀ response, result.1 = .ok response → ∃ dest, moveDestination msg = .ok dest ∧
    Moved (placeOf tenant root msg.url.servicePath) (placeOf tenant root dest) before result.2
  failed : ∀ e, result.1 = .error e →
    ∀ location, result.2.content location = before.content location

theorem moveKeepsContent_of_error (tenant : Str) (root : Option Str) (msg : Message) (disk : Disk)
    (e : RsError) :
    MoveKeepsContent tenant root msg disk (.error e, disk) where
  moved := by
    intro response succeeded
    cases succeeded
  failed := fun _ _ _ => rfl

/-- The request gets to a move that loses the file at its destination. -/
def LosesFile (os : Os) (tenant : Str) (root : Option Str) (msg : Message) (disk : Disk) : Prop :=
  ∃ dest src dst, moveDestination msg = .ok dest ∧
    resolve tenant (rootedPath root msg.url.servicePath) = .ok src ∧
    resolve tenant (rootedPath root dest) = .ok dst ∧
    LosesTarget os disk src dst

theorem mountStore_rename (os : Os) (tenant : Str) (root : Option Str) (source target : Str) :
    (mountStore os tenant root).rename source target =
      LocalFs.rename os tenant (rootedPath root source) (rootedPath root target) := by
  cases root <;> rfl

/-- A move keeps all content exactly when it does not lose the file at its destination. -/
theorem move_keeps_content_iff (service : FileService) (host : FileHost Disk) (os : Os)
    (tenant : Str) (root : Option Str) (msg : Message) (disk : Disk)
    (isMove : msg.method.name = "MOVE") :
    MoveKeepsContent tenant root msg disk
        (service.handle host (mountStore os tenant root) msg disk) ↔
      ¬ LosesFile os tenant root msg disk := by
  rw [handle, if_pos isMove, move]
  rcases mapped : moveDestination msg with e | dest
  · rw [Effect.bind_of_error (Effect.ofExcept_run _ _)]
    refine iff_of_true (moveKeepsContent_of_error tenant root msg disk e) ?_
    rintro ⟨dest, -, -, found, -⟩
    rw [mapped] at found
    cases found
  rw [Effect.bind_of_ok (Effect.ofExcept_run _ _), Effect.bind_pure_run,
    mountStore_rename, LocalFs.rename]
  rcases source : resolve tenant (rootedPath root msg.url.servicePath) with e | src
  · rw [Effect.bind_of_error (Effect.ofExcept_run _ _)]
    refine iff_of_true (moveKeepsContent_of_error tenant root msg disk e) ?_
    rintro ⟨-, src, -, -, found, -⟩
    rw [source] at found
    cases found
  rcases target : resolve tenant (rootedPath root dest) with e | dst
  · rw [Effect.bind_of_ok (Effect.ofExcept_run _ _),
      Effect.bind_of_error (Effect.ofExcept_run _ _)]
    refine iff_of_true (moveKeepsContent_of_error tenant root msg disk e) ?_
    rintro ⟨dest', -, dst, mapped', -, found, -⟩
    rw [mapped] at mapped'
    cases mapped'
    rw [target] at found
    cases found
  rw [Effect.bind_of_ok (Effect.ofExcept_run _ _),
    Effect.bind_of_ok (Effect.ofExcept_run _ _)]
  have sourcePlace : placeOf tenant root msg.url.servicePath = locate src := by
    rw [placeOf, ← (resolve_eq_ok source).1]
  have targetPlace : placeOf tenant root dest = locate dst := by
    rw [placeOf, ← (resolve_eq_ok target).1]
  have loses : LosesFile os tenant root msg disk ↔ LosesTarget os disk src dst := by
    constructor
    · rintro ⟨dest', src', dst', mapped', source', target', lost⟩
      rw [mapped] at mapped'
      cases mapped'
      rw [source] at source'
      cases source'
      rw [target] at target'
      cases target'
      exact lost
    · intro lost
      exact ⟨dest, src, dst, mapped, source, target, lost⟩
  rw [loses, ← moveFile_keepsContent_iff (by rw [(resolve_eq_ok target).2]; exact List.cons_ne_nil _ _)]
  constructor
  · intro keeps
    refine ⟨fun created done => ?_, fun e failed => ?_⟩
    · obtain ⟨dest', mapped', moved⟩ := keeps.moved _ (by rw [done]; rfl)
      rw [mapped] at mapped'
      cases mapped'
      rwa [sourcePlace, targetPlace] at moved
    · exact keeps.failed e (by rw [failed]; rfl)
  · intro keeps
    refine ⟨fun response done => ⟨dest, mapped, ?_⟩, fun e failed => ?_⟩
    · obtain ⟨created, done', -⟩ := Outcome.map_eq_ok.mp done
      rw [sourcePlace, targetPlace]
      exact keeps.moved created done'
    · refine keeps.failed e ?_
      cases outcome : (moveFile os src dst disk).1 with
      | error e' =>
        rw [outcome] at failed
        cases failed
        rfl
      | ok created =>
        rw [outcome] at failed
        cases failed

def moveTo (destination : Str) : Message :=
  requestTo (.extension "MOVE") "/a" [("destination", destination)]

theorem move_to_new_name_keeps_content :
    MoveKeepsContent "t" none (moveTo "/files/c") twoFiles
      (handle ⟨.default⟩ (plainHost Disk) (mountStore (Os.refusing []) "t" none)
        (moveTo "/files/c") twoFiles) := by
  refine (move_keeps_content_iff ⟨.default⟩ (plainHost Disk) (Os.refusing []) "t" none
    (moveTo "/files/c") twoFiles (by decide +kernel)).mpr ?_
  rintro ⟨dest, src, dst, mapped, -, target, lost⟩
  have named : moveDestination (moveTo "/files/c") = .ok "/c" := by decide +kernel
  rw [named] at mapped
  cases mapped
  have resolved : resolve "t" "/c" = .ok [("t" : Str), "c"] := by decide +kernel
  rw [rootedPath, resolved] at target
  cases target
  exact absurd lost.target (by decide +kernel)

theorem not_moveKeepsContent {tenant : Str} {root : Option Str} {msg : Message}
    {result : Except RsError Message × Disk} (location : Location)
    (failed : result.1.toBool = false)
    (lost : result.2.content location ≠ before.content location) :
    ¬ MoveKeepsContent tenant root msg before result := by
  intro keeps
  cases outcome : result.1 with
  | error e => exact lost (keeps.failed e outcome location)
  | ok response =>
    rw [outcome] at failed
    cases failed

/-- A file moved onto itself, under its own or another spelling, is gone, and so is the file at
the destination when the rename fails. -/
theorem moves_lose_files :
    ¬ MoveKeepsContent "t" none (moveTo "/files/a") twoFiles
      (handle ⟨.default⟩ (plainHost Disk) (mountStore (Os.refusing []) "t" none)
        (moveTo "/files/a") twoFiles) ∧
    ¬ MoveKeepsContent "t" none (moveTo "/files/./a") twoFiles
      (handle ⟨.default⟩ (plainHost Disk) (mountStore (Os.refusing []) "t" none)
        (moveTo "/files/./a") twoFiles) ∧
    ¬ MoveKeepsContent "t" none (moveTo "/files/b") twoFiles
      (handle ⟨.default⟩ (plainHost Disk)
        (mountStore (Os.refusing [.rename [("t" : Str), "a"] [("t" : Str), "b"]]) "t" none)
        (moveTo "/files/b") twoFiles) :=
  ⟨not_moveKeepsContent [("t" : Str), "a"] (by decide +kernel) (by decide +kernel),
    not_moveKeepsContent [("t" : Str), "a"] (by decide +kernel) (by decide +kernel),
    not_moveKeepsContent [("t" : Str), "b"] (by decide +kernel) (by decide +kernel)⟩

end Rs2Runtime.Services.FileService
