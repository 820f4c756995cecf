import Rs2Runtime.Services.FileMove

/-!
Contract: what a write of the local file store leaves at its target.

Owns:
- systems on which the process stops after some number of calls;
- writes that leave the old content or the new one, and the old one where they fail;
- the equivalence of that with no file standing at the target: an existing file is removed
  before the rename that is to replace it.

Does not own: the temporary files that a stop leaves behind, or chunks of a body that reach
the temporary file one by one.
-/

namespace Rs2Runtime.Adapters

open Text Data Capabilities

/-- The process stops once so many calls were made: no later call acts. -/
def Os.stopsAfter (os : Os) (count : Nat) : Os where
  refuses := fun calls call =>
    if count ≤ calls.length then some (.other "stopped") else os.refuses calls call
  now := os.now
  freshName := os.freshName

namespace LocalFs

/-- The temporary file of a write. -/
def temporary (full : PathBuf) (fresh : Str) : PathBuf :=
  withExtension full (("rs2tmp-" : Str) ++ fresh)

/-- No fresh name makes the temporary file of a path the file itself. -/
def FreshBeside (os : Os) (full : PathBuf) : Prop :=
  ∀ calls, locate (temporary full (os.freshName calls)) ≠ locate full

/-- The target has its old content or the whole of the new one. -/
def Whole (full : PathBuf) (body : Body) (before after : Disk) : Prop :=
  after.content (locate full) = before.content (locate full) ∨
    ∃ octets, body.streamed = .ok octets ∧ after.content (locate full) = some octets

/-- On every system the write leaves the target whole, also where the process stops on the
way, and a reported failure leaves its old content. -/
def WritesAtomically (tenant path : Str) (body : Body) (disk : Disk) : Prop :=
  ∀ os full, resolve tenant path = .ok full → FreshBeside os full →
    Whole full body disk (write os tenant path body disk).2 ∧
    (∀ e, (write os tenant path body disk).1 = .error e →
      (write os tenant path body disk).2.content (locate full) = disk.content (locate full)) ∧
    ∀ count, Whole full body disk (write (os.stopsAfter count) tenant path body disk).2

/-- A readable body is written where a file stands. -/
def Overwrites (tenant path : Str) (body : Body) (disk : Disk) : Prop :=
  ∃ full octets, resolve tenant path = .ok full ∧ disk.IsFile full ∧ body.streamed = .ok octets

/-! ## The temporary file -/

variable {os : Os} {full tmp : PathBuf}

/-- The temporary files lie beside their target, under names that end in the fresh one. -/
theorem locate_temporary (named : locate full ≠ []) :
    ∃ stem, ∀ fresh, locate (temporary full fresh) =
      (locate full).dropLast ++ [stem ++ '.' :: (("rs2tmp-" : Str) ++ fresh)] := by
  refine ⟨fileStem ((locate full).getLast named), fun fresh => ?_⟩
  rw [temporary, withExtension, List.getLast?_eq_some_getLast named]
  refine List.filter_eq_self.mpr fun name member => ?_
  rcases List.mem_append.mp member with above | last
  · exact (List.mem_filter.mp (List.mem_of_mem_dropLast above)).2
  · rw [List.mem_singleton.mp last, decide_eq_true_eq]
    intro dotted
    have lengths := congrArg List.length dotted
    have longer : (("rs2tmp-" : Str) ++ fresh).length = 7 + fresh.length := List.length_append
    simp only [List.length_append, List.length_cons, List.length_nil] at lengths longer
    omega

theorem dropLast_locate_temporary (named : locate full ≠ []) (fresh : Str) :
    (locate (temporary full fresh)).dropLast = (locate full).dropLast := by
  obtain ⟨stem, shape⟩ := locate_temporary named
  rw [shape, List.dropLast_concat]

/-- Some fresh name makes a temporary file that avoids the given locations. -/
theorem exists_fresh (named : locate full ≠ []) (taken : List Location) :
    ∃ fresh : Str, locate (temporary full fresh) ∉ taken := by
  have distinct : Function.Injective fun fresh : Str => locate (temporary full fresh) := by
    intro fresh fresh' same
    obtain ⟨stem, shape⟩ := locate_temporary named
    dsimp only at same
    rw [shape, shape] at same
    have names := List.singleton_inj.mp (List.append_cancel_left same)
    exact List.append_cancel_left (List.cons.inj (List.append_cancel_left names)).2
  obtain ⟨location, ⟨fresh, rfl⟩, free⟩ :=
    (Set.infinite_range_of_injective distinct).exists_notMem_finset taken.toFinset
  exact ⟨fresh, fun member => free (List.mem_toFinset.mpr member)⟩

/-! ## The calls of a write -/

/-- The file at a location stays as it is. -/
def Untouched (location : Location) (before after : Disk) : Prop :=
  after.tree.file? location = before.tree.file? location

theorem untouched_refl (location : Location) (disk : Disk) : Untouched location disk disk :=
  rfl

variable {location : Location} {disk : Disk} {octets : Octets} {tenant path : Str} {body : Body}

theorem untouched_trans {before between after : Disk} (early : Untouched location before between)
    (late : Untouched location between after) :
    Untouched location before after :=
  late.trans early

/-- A call leaves a file that its action leaves. -/
theorem perform_untouched {call : SysCall}
    {act : FileTree Str FileContent → Except IoError Unit × FileTree Str FileContent}
    (kept : (act disk.tree).2.file? location = disk.tree.file? location) :
    Untouched location disk (os.perform call act disk).2 := by
  cases answer : os.refuses disk.calls call with
  | some e => rw [Os.perform_of_refused answer]; exact untouched_refl location disk
  | none => rw [Os.perform_of_granted answer]; exact kept

theorem create_untouched (apart : location ≠ locate tmp) :
    Effect.Keeps (Untouched location) (os.create tmp) := by
  intro disk
  refine perform_untouched ?_
  split
  · split
    · rw [FileTree.file?_placeFile, if_neg apart]
    · rfl
  · rfl

theorem writeAll_untouched (octets : Octets) (apart : location ≠ locate tmp) :
    Effect.Keeps (Untouched location) (os.writeAll tmp octets) := by
  intro disk
  refine perform_untouched ?_
  split
  · split
    · rw [FileTree.file?_placeFile, if_neg apart]
    · rfl
  · rfl

theorem removeFile_untouched {path : PathBuf}
    (apart : location = locate path → ¬ disk.IsFile path) :
    Untouched location disk (os.removeFile path disk).2 := by
  refine perform_untouched ?_
  split
  · rename_i content found
    split
    · rfl
    · rename_i undotted
      rw [FileTree.file?_eraseFile, if_neg]
      intro same
      exact apart same ⟨by rw [found]; rfl, undotted⟩
  · rfl

/-- A file that was written holds the octets. -/
theorem writeAll_eq_ok (done : (os.writeAll tmp octets disk).1 = .ok ()) :
    (os.writeAll tmp octets disk).2.content (locate tmp) = some octets := by
  unfold Os.writeAll at done ⊢
  cases answer : os.refuses disk.calls (.writeAll tmp) with
  | some e =>
    rw [Os.perform_of_refused answer] at done
    cases done
  | none =>
    rw [Os.perform_of_granted answer] at done ⊢
    dsimp only at done ⊢
    split at done
    · split at done
      · rename_i inside free
        rw [dif_pos inside, dif_pos free, Disk.content, FileTree.file?_placeFile, if_pos rfl]
        rfl
      · cases done
    · cases done

theorem createParent_untouched (os : Os) (path : PathBuf) (location : Location) :
    Effect.Keeps (Untouched location) (createParent os path) :=
  fun disk => file?_createParent os path disk location

/-- Filling the temporary file fails and leaves every other file, or leaves the octets of the
body in it. -/
theorem fill_cases (os : Os) (tmp : PathBuf) (body : Body) (disk : Disk) :
    (∀ location, location ≠ locate tmp → Untouched location disk (fill os tmp body disk).2) ∧
    ((fill os tmp body disk).1 = .ok () → ∃ octets, body.streamed = .ok octets ∧
      (fill os tmp body disk).2.content (locate tmp) = some octets) := by
  rw [fill, Effect.bind_of_ok (Effect.attempt_run _ _)]
  cases streamed : body.streamed with
  | error e =>
    rw [Effect.bind_of_error (Effect.ofExcept_run _ _)]
    refine ⟨fun location apart => ?_, ?_⟩
    · exact removeFile_untouched fun same => absurd same apart
    · exact nofun
  | ok octets =>
    rw [Effect.bind_of_ok (Effect.ofExcept_run _ _), Effect.mapError_run]
    have kept : ∀ location, location ≠ locate tmp →
        Untouched location disk (os.writeAll tmp octets disk).2 :=
      fun location apart => writeAll_untouched octets apart disk
    cases done : (os.writeAll tmp octets disk).1 with
    | error e =>
      refine ⟨fun location apart => ?_, nofun⟩
      exact untouched_trans (kept location apart)
        (removeFile_untouched fun same => absurd same apart)
    | ok =>
      exact ⟨kept, fun _ => ⟨octets, rfl, writeAll_eq_ok done⟩⟩

/-- The end of a write: clear the way and rename. -/
def replace (os : Os) (tmp full : PathBuf) (existed : Bool) : Effect RsError Disk Bool := do
  let _ ← clearWay os full existed
  (os.rename tmp full).mapError IoError.toRsError
  return !existed

/-- What a write does once the directory of its target exists. -/
def stage (os : Os) (tmp full : PathBuf) (existed : Bool) (body : Body) :
    Effect RsError Disk Bool := do
  (os.create tmp).mapError IoError.toRsError
  fill os tmp body
  replace os tmp full existed

theorem write_of_created {first : Disk} (resolved : resolve tenant path = .ok full)
    (created : createParent os full disk = (.ok (), first)) :
    write os tenant path body disk =
      stage os (temporary full (os.freshName first.calls)) full (first.metadata full).toBool body
        first := by
  rw [write, resolved, Effect.bind_of_ok (Effect.ofExcept_run _ _), Effect.bind_of_ok created]
  rfl

/-- A write fails with its target untouched, or ends in replacing it by a temporary file that
holds the new content. -/
theorem write_cases (body : Body) (disk : Disk) (resolved : resolve tenant path = .ok full)
    (fresh : FreshBeside os full) :
    (∃ e, (write os tenant path body disk).1 = .error e ∧
      Untouched (locate full) disk (write os tenant path body disk).2) ∨
    ∃ octets tmp existed between, body.streamed = .ok octets ∧ locate tmp ≠ locate full ∧
      Untouched (locate full) disk between ∧ between.content (locate tmp) = some octets ∧
      write os tenant path body disk = replace os tmp full existed between := by
  have parent := createParent_untouched os full (locate full) disk
  rcases created : createParent os full disk with ⟨e | _, first⟩
  all_goals rw [created] at parent
  · rw [write, resolved, Effect.bind_of_ok (Effect.ofExcept_run _ _),
      Effect.bind_of_error created]
    exact .inl ⟨e, rfl, parent⟩
  rw [write_of_created resolved created]
  have apart := fresh first.calls
  generalize temporary full (os.freshName first.calls) = tmp at apart ⊢
  generalize (first.metadata full).toBool = existed
  have kept : Untouched (locate full) first (os.create tmp first).2 :=
    create_untouched apart.symm first
  have opening := untouched_trans parent kept
  rcases opened : (os.create tmp).mapError IoError.toRsError first with ⟨e | _, second⟩
  all_goals
    have through : (os.create tmp first).2 = second := congrArg Prod.snd opened
    rw [through] at opening
  · rw [stage, Effect.bind_of_error opened]
    exact .inl ⟨e, rfl, opening⟩
  rw [stage, Effect.bind_of_ok opened]
  obtain ⟨others, written⟩ := fill_cases os tmp body second
  have filling := untouched_trans opening (others _ apart.symm)
  rcases filled : fill os tmp body second with ⟨e | _, third⟩
  all_goals rw [filled] at filling written
  · rw [Effect.bind_of_error filled]
    exact .inl ⟨e, rfl, filling⟩
  obtain ⟨octets, streamed, held⟩ := written rfl
  rw [Effect.bind_of_ok filled]
  exact .inr ⟨octets, tmp, existed, third, streamed, apart, filling, held, rfl⟩

/-! ## Where no file stands -/

/-- Clearing the way where no file stands leaves every file. -/
theorem clearWay_untouched (vacant : ¬ disk.IsFile full) (existed : Bool) :
    ∃ answer after, clearWay os full existed disk = (.ok answer, after) ∧
      ∀ location, Untouched location disk after := by
  cases existed with
  | false => exact ⟨.ok (), disk, rfl, fun location => untouched_refl location disk⟩
  | true => exact ⟨_, _, rfl, fun _ => removeFile_untouched fun _ => vacant⟩

/-- Where no file stands, replacing fails with nothing there or puts the new content there. -/
theorem replace_of_vacant (vacant : ¬ disk.IsFile full)
    (held : disk.content (locate tmp) = some octets) (existed : Bool) :
    (∃ e, (replace os tmp full existed disk).1 = .error e ∧
      Untouched (locate full) disk (replace os tmp full existed disk).2) ∨
    (∃ created, (replace os tmp full existed disk).1 = .ok created) ∧
      (replace os tmp full existed disk).2.content (locate full) = some octets := by
  obtain ⟨answer, after, cleared, kept⟩ := clearWay_untouched vacant existed
  rw [replace, Effect.bind_of_ok cleared, Effect.bind_pure_run, Effect.mapError_run]
  rcases rename_cases os tmp full after with ⟨e, failed, still⟩ | ⟨done, content, found, files⟩
  · refine .inl ⟨e.toRsError, ?_, untouched_trans (kept _) (still _)⟩
    rw [failed]
    rfl
  · refine .inr ⟨⟨!existed, ?_⟩, ?_⟩
    · rw [done]
      rfl
    · have same := content_congr (kept (locate tmp))
      rw [held, Disk.content, found] at same
      rw [Disk.content, files, if_pos rfl]
      exact same

theorem whole_of_untouched {before after : Disk} (kept : Untouched (locate full) before after) :
    Whole full body before after :=
  .inl (content_congr kept)

/-- A write where no readable body meets a file leaves the target whole, and as it was where
it fails. -/
theorem write_of_not_overwrites (safe : ¬ Overwrites tenant path body disk)
    (resolved : resolve tenant path = .ok full) (fresh : FreshBeside os full) :
    Whole full body disk (write os tenant path body disk).2 ∧
      ∀ e, (write os tenant path body disk).1 = .error e →
        (write os tenant path body disk).2.content (locate full) =
          disk.content (locate full) := by
  rcases write_cases body disk resolved fresh with
    ⟨e, -, kept⟩ | ⟨octets, tmp, existed, between, streamed, apart, kept, held, evaluated⟩
  · exact ⟨whole_of_untouched kept, fun _ _ => content_congr kept⟩
  have vacant : ¬ between.IsFile full := by
    intro file
    refine safe ⟨full, octets, resolved, ⟨?_, file.2⟩, streamed⟩
    rw [← kept]
    exact file.1
  rw [evaluated]
  rcases replace_of_vacant vacant held existed with
    ⟨e, -, still⟩ | ⟨⟨created, succeeded⟩, arrived⟩
  · have same := untouched_trans kept still
    exact ⟨whole_of_untouched same, fun _ _ => content_congr same⟩
  · refine ⟨.inr ⟨octets, streamed, arrived⟩, fun e failed => ?_⟩
    rw [succeeded] at failed
    cases failed

/-! ## Where a file stands -/

/-- The system refuses one call, whenever it is made, and nothing else. -/
def OnlyRefuses (os : Os) (call : SysCall) : Prop :=
  ∀ calls made, os.refuses calls made = none ↔ made ≠ call

/-- A system that refuses one call. -/
def stuckOn (call : SysCall) (fresh : Str) : Os where
  refuses := fun _ made => if made = call then some (.other "refused") else none
  now := fun _ => 0
  freshName := fun _ => fresh

theorem onlyRefuses_stuckOn (call : SysCall) (fresh : Str) :
    OnlyRefuses (stuckOn call fresh) call := by
  intro calls made
  show (if made = call then some (IoError.other "refused") else none) = none ↔ made ≠ call
  by_cases same : made = call
  · rw [if_pos same]
    exact iff_of_false nofun (not_not.mpr same)
  · rw [if_neg same]
    exact iff_of_true rfl same

/-- A new file can be created and filled in an existing directory unless the system refuses. -/
theorem create_of_granted (inside : (locate tmp).dropLast ∈ disk.tree.dirs)
    (free : locate tmp ∉ disk.tree.dirs) (granted : os.refuses disk.calls (.create tmp) = none) :
    (os.create tmp disk).1 = .ok () ∧ (os.create tmp disk).2.tree.dirs = disk.tree.dirs := by
  rw [Os.create, Os.perform_of_granted granted]
  simp only [dif_pos inside, dif_pos free]
  exact ⟨trivial, rfl⟩

theorem fill_of_granted (streamed : body.streamed = .ok octets)
    (inside : (locate tmp).dropLast ∈ disk.tree.dirs) (free : locate tmp ∉ disk.tree.dirs)
    (granted : os.refuses disk.calls (.writeAll tmp) = none) :
    (fill os tmp body disk).1 = .ok () := by
  have done : (os.writeAll tmp octets disk).1 = .ok () := by
    rw [Os.writeAll, Os.perform_of_granted granted]
    simp only [dif_pos inside, dif_pos free]
  rw [fill, Effect.bind_of_ok (Effect.attempt_run _ _), streamed,
    Effect.bind_of_ok (Effect.ofExcept_run _ _), Effect.mapError_run, done]
  rfl

/-- Creating the directory of a path adds only what lies above the path. -/
theorem mem_dirs_createParent {path : PathBuf}
    (member : location ∈ (createParent os path disk).2.tree.dirs) :
    location <+: (locate path).dropLast ∨ location ∈ disk.tree.dirs := by
  unfold createParent Os.createDirAll at member
  rw [Effect.mapError_run] at member
  cases answer : os.refuses disk.calls (.createDirAll (locate path).dropLast) with
  | some e =>
    rw [Os.perform_of_refused answer] at member
    exact .inr member
  | none =>
    rw [Os.perform_of_granted answer] at member
    dsimp only at member
    split at member
    · exact (List.mem_append.mp member).imp_left (List.mem_inits _ _).mp
    · exact .inr member

/-- The file is removed, and then the rename that was to replace it is refused. -/
theorem replace_of_onlyRefuses (stuck : OnlyRefuses os (.rename tmp full))
    (file : disk.IsFile full) :
    (∃ e, (replace os tmp full true disk).1 = .error e) ∧
      (replace os tmp full true disk).2.content (locate full) = none := by
  have removed := removeFile_of_granted file ((stuck disk.calls _).mpr nofun)
  obtain ⟨e, refused⟩ := Option.ne_none_iff_exists'.mp fun granted =>
    (stuck (disk.calls ++ [.removeFile full]) (.rename tmp full)).mp granted rfl
  rw [replace, clearWay, if_pos rfl, Effect.bind_of_ok (Effect.attempt_run _ _), removed,
    Effect.bind_pure_run, Effect.mapError_run, Os.rename, Os.perform_of_refused refused]
  refine ⟨⟨_, rfl⟩, ?_⟩
  show Option.map _ ((disk.tree.eraseFile (locate full)).file? (locate full)) = none
  rw [FileTree.file?_eraseFile, if_pos rfl]
  rfl

/-- Staging over a file gets as far as the rename. -/
theorem stage_of_onlyRefuses (stuck : OnlyRefuses os (.rename tmp full)) (file : disk.IsFile full)
    (streamed : body.streamed = .ok octets) (apart : locate tmp ≠ locate full)
    (inside : (locate tmp).dropLast ∈ disk.tree.dirs) (free : locate tmp ∉ disk.tree.dirs) :
    (∃ e, (stage os tmp full true body disk).1 = .error e) ∧
      (stage os tmp full true body disk).2.content (locate full) = none := by
  obtain ⟨created, sameDirs⟩ :=
    create_of_granted inside free ((stuck disk.calls (.create tmp)).mpr nofun)
  have opening : Untouched (locate full) disk (os.create tmp disk).2 :=
    create_untouched apart.symm disk
  have opened : (os.create tmp).mapError IoError.toRsError disk =
      (.ok (), (os.create tmp disk).2) := by
    rw [Effect.mapError_run, created]
    rfl
  rw [stage, Effect.bind_of_ok opened]
  generalize (os.create tmp disk).2 = second at sameDirs opening
  have done : (fill os tmp body second).1 = .ok () :=
    fill_of_granted streamed (sameDirs ▸ inside) (sameDirs ▸ free)
      ((stuck second.calls (.writeAll tmp)).mpr nofun)
  have filling := (fill_cases os tmp body second).1 _ apart.symm
  rcases filled : fill os tmp body second with ⟨result, third⟩
  rw [filled] at done filling
  subst done
  rw [Effect.bind_of_ok filled]
  refine replace_of_onlyRefuses stuck ⟨?_, file.2⟩
  rw [untouched_trans opening filling]
  exact file.1

/-- A write over a file loses it on a system that refuses the rename. -/
theorem write_of_onlyRefuses {fresh : Str} (resolved : resolve tenant path = .ok full)
    (file : disk.IsFile full) (streamed : body.streamed = .ok octets)
    (named : ∀ calls, os.freshName calls = fresh)
    (stuck : OnlyRefuses os (.rename (temporary full fresh) full))
    (free : locate (temporary full fresh) ∉ locate full :: disk.tree.dirs) :
    (∃ e, (write os tenant path body disk).1 = .error e) ∧
      (write os tenant path body disk).2.content (locate full) = none := by
  have rooted : locate full ≠ [] := by
    rw [(resolve_eq_ok resolved).2]
    exact List.cons_ne_nil _ _
  obtain ⟨tree, created⟩ := createParent_of_isFile file rooted ((stuck disk.calls _).mpr nofun)
  have sameFiles : ∀ location, tree.file? location = disk.tree.file? location := by
    intro location
    have kept := file?_createParent os full disk location
    rwa [created] at kept
  have still : Disk.IsFile ⟨tree, disk.calls ++ [.createDirAll (locate full).dropLast]⟩ full :=
    (isFile_congr sameFiles).mpr file
  obtain ⟨size, known⟩ := metadata_of_isFile still
  rw [write_of_created resolved created, named, known]
  refine stage_of_onlyRefuses stuck still streamed ?_ ?_ ?_
  · exact fun same => free (same ▸ List.mem_cons_self)
  · obtain ⟨content, found⟩ := Option.isSome_iff_exists.mp still.1
    rw [dropLast_locate_temporary rooted fresh]
    exact FileTree.dropLast_mem_dirs found rooted
  · intro member
    have listed : locate (temporary full fresh) ∈ (createParent os full disk).2.tree.dirs := by
      rw [created]
      exact member
    rcases mem_dirs_createParent listed with above | before
    · -- The temporary file is as deep as its target, so it is none of the directories above.
      obtain ⟨stem, shape⟩ := locate_temporary rooted
      have shorter := above.length_le
      rw [shape, List.length_append, List.length_singleton] at shorter
      omega
    · exact free (List.mem_cons_of_mem _ before)

/-- Writes are atomic exactly where no readable body meets a file. -/
theorem write_is_atomic_iff (tenant path : Str) (body : Body) (disk : Disk) :
    WritesAtomically tenant path body disk ↔ ¬ Overwrites tenant path body disk := by
  constructor
  · rintro atomic ⟨full, octets, resolved, file, streamed⟩
    have named : locate full ≠ [] := by
      rw [(resolve_eq_ok resolved).2]
      exact List.cons_ne_nil _ _
    obtain ⟨fresh, free⟩ := exists_fresh named (locate full :: disk.tree.dirs)
    obtain ⟨⟨e, failed⟩, lost⟩ := write_of_onlyRefuses resolved file streamed (fun _ => rfl)
      (onlyRefuses_stuckOn (.rename (temporary full fresh) full) fresh) free
    have beside : FreshBeside (stuckOn (.rename (temporary full fresh) full) fresh) full :=
      fun _ same => free (same ▸ List.mem_cons_self)
    have restored := (atomic _ full resolved beside).2.1 e failed
    rw [lost, Disk.content] at restored
    obtain ⟨content, found⟩ := Option.isSome_iff_exists.mp file.1
    rw [found] at restored
    cases restored
  · intro safe os full resolved fresh
    obtain ⟨whole, failed⟩ := write_of_not_overwrites safe resolved fresh
    refine ⟨whole, failed, fun count => ?_⟩
    have beside : FreshBeside (os.stopsAfter count) full := fresh
    exact (write_of_not_overwrites safe resolved beside).1

/-- The file a is gone after a write to it whose rename is refused, which is reported as a
failure, and after one during which the process stops behind the removal. -/
theorem overwriting_loses_file :
    ¬ WritesAtomically "t" "/a" (Body.fromBytes [7] .json) twoFiles ∧
    twoFiles.content [("t" : Str), "a"] = some [1] ∧
    (write (Os.refusing [.rename [("t" : Str), "a.rs2tmp-fresh"] [("t" : Str), "a"]]) "t" "/a"
      (Body.fromBytes [7] .json) twoFiles).1.toBool = false ∧
    (write (Os.refusing [.rename [("t" : Str), "a.rs2tmp-fresh"] [("t" : Str), "a"]]) "t" "/a"
      (Body.fromBytes [7] .json) twoFiles).2.content [("t" : Str), "a"] = none ∧
    (write ((Os.refusing []).stopsAfter 4) "t" "/a"
      (Body.fromBytes [7] .json) twoFiles).2.content [("t" : Str), "a"] = none := by
  have held : twoFiles.content [("t" : Str), "a"] = some [1] := by decide +kernel
  have stopped : (write ((Os.refusing []).stopsAfter 4) "t" "/a"
      (Body.fromBytes [7] .json) twoFiles).2.content [("t" : Str), "a"] = none := by
    decide +kernel
  refine ⟨fun atomic => ?_, held, by decide +kernel, by decide +kernel, stopped⟩
  have resolved : resolve "t" "/a" = .ok [("t" : Str), "a"] := by decide +kernel
  have place : locate [("t" : Str), "a"] = [("t" : Str), "a"] := by decide +kernel
  have beside : FreshBeside (Os.refusing []) [("t" : Str), "a"] := by
    intro calls
    show locate (temporary [("t" : Str), "a"] "fresh") ≠ locate [("t" : Str), "a"]
    decide +kernel
  rcases (atomic _ _ resolved beside).2.2 4 with old | ⟨octets, -, new⟩
  · rw [place, stopped, held] at old
    cases old
  · rw [place, stopped] at new
    cases new

end LocalFs

end Rs2Runtime.Adapters
