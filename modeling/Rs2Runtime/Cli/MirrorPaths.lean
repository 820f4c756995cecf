import Mathlib.Logic.Relation
import Rs2Runtime.Router.Mounts

/-!
Contract: the local files of a mirror and the stored specs that they stand for.

Owns:
- texts that become the same when one character is replaced by a text;
- the local path of a spec, and the remote path that is read back from it;
- the sets of mounts for which local paths are read back and tell specs apart.

Does not own: which specs a store has, or what is done with a file.

## Why a condition

A mount's path becomes the name of one directory: slashes are replaced by two underscores, and the
root mount is called `root`.  Paths with underscores, and a mount called `root`, may get the name
of another mount's directory.
-/

namespace Rs2Runtime.Cli.Mirror

open Text Router

/-! ## Exchanges -/

section Exchange

variable (mark : Char) (text : Str)

/-- Replace a character by a text, everywhere. -/
def replaceChar (s : Str) : Str :=
  s.flatMap fun c => if c = mark then text else [c]

/-- One occurrence of the character is exchanged for the text. -/
inductive Exchange : Str → Str → Prop
  | swap (before after : Str) : Exchange (before ++ mark :: after) (before ++ (text ++ after))

/-- Texts that turn into each other by exchanges of the character and the text. -/
def Exchangeable (s t : Str) : Prop :=
  Relation.EqvGen (Exchange mark text) s t

variable {mark text}

theorem replaceChar_append (s t : Str) :
    replaceChar mark text (s ++ t) = replaceChar mark text s ++ replaceChar mark text t :=
  List.flatMap_append

theorem replaceChar_of_not_mem {s : Str} (absent : mark ∉ s) : replaceChar mark text s = s := by
  induction s with
  | nil => rfl
  | cons c s ih =>
    rw [List.mem_cons, not_or] at absent
    show (if c = mark then text else [c]) ++ replaceChar mark text s = c :: s
    rw [if_neg (Ne.symm absent.1), ih absent.2]
    rfl

theorem replaceChar_cons_self (s : Str) :
    replaceChar mark text (mark :: s) = text ++ replaceChar mark text s := by
  show (if mark = mark then text else [mark]) ++ replaceChar mark text s = _
  rw [if_pos rfl]

theorem not_mem_replaceChar (foreign : mark ∉ text) (s : Str) : mark ∉ replaceChar mark text s := by
  intro member
  obtain ⟨c, -, inside⟩ := List.mem_flatMap.mp member
  split at inside
  · exact foreign inside
  · rename_i other
    exact other (List.mem_singleton.mp inside).symm

/-- A text and its replacement turn into each other. -/
theorem exchangeable_replaceChar (front s : Str) :
    Exchangeable mark text (front ++ s) (front ++ replaceChar mark text s) := by
  induction s generalizing front with
  | nil => exact Relation.EqvGen.refl _
  | cons c s ih =>
    by_cases marked : c = mark
    · subst marked
      have later := ih (front ++ text)
      rw [List.append_assoc, List.append_assoc, ← replaceChar_cons_self] at later
      exact Relation.EqvGen.trans _ _ _ (Relation.EqvGen.rel _ _ (.swap front s)) later
    · have later := ih (front ++ [c])
      have kept : replaceChar mark text (c :: s) = c :: replaceChar mark text s := by
        show (if c = mark then text else [c]) ++ replaceChar mark text s = _
        rw [if_neg marked]
        rfl
      rw [kept]
      simpa using later

/-- Replacing gives the same exactly for texts that turn into each other. -/
theorem replaceChar_eq_iff (foreign : mark ∉ text) {s t : Str} :
    replaceChar mark text s = replaceChar mark text t ↔ Exchangeable mark text s t := by
  constructor
  · intro same
    have first := @exchangeable_replaceChar mark text [] s
    have second := @exchangeable_replaceChar mark text [] t
    rw [List.nil_append, List.nil_append] at first second
    rw [same] at first
    exact Relation.EqvGen.trans _ _ _ first (Relation.EqvGen.symm _ _ second)
  · intro related
    induction related with
    | rel s t exchanged =>
      cases exchanged with
      | swap before after =>
        rw [replaceChar_append, replaceChar_append, replaceChar_cons_self, replaceChar_append,
          replaceChar_of_not_mem foreign]
    | refl s => rfl
    | symm s t _ ih => exact ih.symm
    | trans s t u _ _ first second => exact first.trans second

end Exchange

/-! ## Paths -/

/-- A mount path as the name of a directory. -/
def mountSlug (mountPath : Str) : Str :=
  let trimmed := trimMatches (· = '/') mountPath
  if trimmed = [] then "root" else replaceChar '/' "__" trimmed

/-- The local path of a spec in the mirror. -/
def localSpecPath (mountPath subtree rel : Str) : Str :=
  "specs/".toList ++ mountSlug mountPath ++ '/' :: trimMatches (· = '/') subtree ++ '/' :: rel

/-- A mount path and a path below it. -/
def joinPath (base rest : Str) : Str :=
  let base := base.rdropWhile (· = '/')
  let rest := rest.dropWhile (· = '/')
  if base = [] then '/' :: rest else base ++ '/' :: rest

/-- A mount with an authoring subtree, whose name is a single segment. -/
structure SpecMount where
  path : Str
  subtree : Str
  single : '/' ∉ subtree
  deriving DecidableEq

/-- The remote path of a local one; none where the directory is no mount's. -/
def remoteSpecPath (localRel : Str) (mounts : List SpecMount) : Option Str :=
  (stripStart "specs/" localRel).bind fun rest =>
    (splitOnce ['/'] rest).bind fun parts =>
      (mounts.find? fun mount => mountSlug mount.path = parts.1).map fun mount =>
        joinPath mount.path parts.2

/-- The path of a spec in its store. -/
def SpecMount.remotePath (mount : SpecMount) (rel : Str) : Str :=
  joinPath mount.path (mount.subtree ++ '/' :: rel)

def SpecMount.localPath (mount : SpecMount) (rel : Str) : Str :=
  localSpecPath mount.path mount.subtree rel

/-- Mounts at pairwise distinct paths. -/
structure SpecMounts where
  mounts : List SpecMount
  distinct : (mounts.map fun mount => normalizeBasePath mount.path).Nodup

/-- Local paths are read back as the paths they were made for, and tell specs apart. -/
structure Mirrors (specs : SpecMounts) : Prop where
  back : ∀ mount ∈ specs.mounts, ∀ rel,
    remoteSpecPath (mount.localPath rel) specs.mounts = some (mount.remotePath rel)
  apart : ∀ mount ∈ specs.mounts, ∀ other ∈ specs.mounts, ∀ rel rel',
    mount.localPath rel = other.localPath rel' → mount = other ∧ rel = rel'

/-- A mount's path without slashes around it; the root mount is called `root`. -/
def directoryName (mountPath : Str) : Str :=
  if trimMatches (· = '/') mountPath = [] then "root" else trimMatches (· = '/') mountPath

/-- No two mounts have paths that turn into each other by exchanges of slashes and double
underscores. -/
def Unmistakable (specs : SpecMounts) : Prop :=
  ∀ mount ∈ specs.mounts, ∀ other ∈ specs.mounts,
    Exchangeable '/' "__" (directoryName mount.path) (directoryName other.path) → mount = other

section Paths

variable {specs : SpecMounts} {mount other : SpecMount} {path path' : Str}

theorem mountSlug_eq (path : Str) : mountSlug path = replaceChar '/' "__" (directoryName path) := by
  unfold mountSlug directoryName
  dsimp only
  split
  · rfl
  · rfl

theorem mountSlug_eq_iff :
    mountSlug path = mountSlug path' ↔
      Exchangeable '/' "__" (directoryName path) (directoryName path') := by
  rw [mountSlug_eq, mountSlug_eq]
  exact replaceChar_eq_iff (by decide)

theorem slash_notMem_mountSlug (path : Str) : '/' ∉ mountSlug path := by
  rw [mountSlug_eq]
  exact not_mem_replaceChar (by decide) _

theorem trimMatches_of_single {subtree : Str} (single : '/' ∉ subtree) :
    trimMatches (· = '/') subtree = subtree := by
  have kept {c : Char} (member : c ∈ subtree) : decide (c = '/') = false :=
    decide_eq_false fun slash => single (slash ▸ member)
  apply (trimMatches_eq_self_iff _ subtree).mpr
  constructor
  · intro c first
    exact kept (List.mem_of_head? first)
  · intro c last
    exact kept (List.mem_of_getLast? last)

theorem localPath_eq (mount : SpecMount) (rel : Str) :
    mount.localPath rel =
      "specs/".toList ++ (mountSlug mount.path ++ '/' :: (mount.subtree ++ '/' :: rel)) := by
  unfold SpecMount.localPath localSpecPath
  rw [trimMatches_of_single mount.single, List.append_assoc, List.append_assoc, List.cons_append]

/-- A local path is read back below the first mount with the same directory. -/
theorem remoteSpecPath_localPath (mounts : List SpecMount) (mount : SpecMount) (rel : Str) :
    remoteSpecPath (mount.localPath rel) mounts =
      (mounts.find? fun other => mountSlug other.path = mountSlug mount.path).map fun other =>
        joinPath other.path (mount.subtree ++ '/' :: rel) := by
  have stripped : stripStart "specs/" (mount.localPath rel) =
      some (mountSlug mount.path ++ '/' :: (mount.subtree ++ '/' :: rel)) :=
    stripStart_eq_some.mpr (localPath_eq mount rel)
  rw [remoteSpecPath, stripped, Option.bind_some,
    splitOnce_char_of_not_mem (slash_notMem_mountSlug mount.path)]
  rfl

theorem trimMatches_concat_slash (path : Str) :
    trimMatches (· = '/') (path ++ ['/']) = trimMatches (· = '/') path := by
  unfold trimMatches
  by_cases slashes : path.dropWhile (· = '/') = []
  · have all : ∀ c ∈ path ++ ['/'], decide (c = '/') = true := by
      intro c member
      rcases List.mem_append.mp member with inside | last
      · exact List.dropWhile_eq_nil_iff.mp slashes c inside
      · rw [List.mem_singleton.mp last]
        rfl
    rw [slashes, List.dropWhile_eq_nil_iff.mpr all]
  · have kept : (path ++ ['/']).dropWhile (· = '/') = path.dropWhile (· = '/') ++ ['/'] := by
      rw [List.dropWhile_append, if_neg (by simpa using slashes)]
    rw [kept]
    exact List.rdropWhile_concat_pos _ _ _ rfl

/-- Slashes at the end of a mount's path do not count for its normal form. -/
theorem trimMatches_rdropWhile (path : Str) :
    trimMatches (· = '/') (path.rdropWhile (· = '/')) = trimMatches (· = '/') path := by
  induction path using List.reverseRecOn with
  | nil => rfl
  | append_singleton path c ih =>
    by_cases slash : c = '/'
    · subst slash
      have dropped : (path ++ ['/']).rdropWhile (· = '/') = path.rdropWhile (· = '/') :=
        List.rdropWhile_concat_pos _ _ _ rfl
      rw [dropped, ih, trimMatches_concat_slash]
    · have kept : (path ++ [c]).rdropWhile (· = '/') = path ++ [c] :=
        List.rdropWhile_concat_neg _ _ _ (by simpa using slash)
      rw [kept]

/-- Paths below two mounts are the same only if the mounts' paths are. -/
theorem normalizeBasePath_of_joinPath {rest : Str} (same : joinPath path rest = joinPath path' rest) :
    normalizeBasePath path = normalizeBasePath path' := by
  have bases : path.rdropWhile (· = '/') = path'.rdropWhile (· = '/') := by
    have cut (base : Str) : joinPath base rest =
        base.rdropWhile (· = '/') ++ '/' :: rest.dropWhile (· = '/') := by
      unfold joinPath
      dsimp only
      split
      · rename_i empty
        rw [empty]
        rfl
      · rfl
    rw [cut, cut] at same
    exact List.append_cancel_right same
  have trimmed : trimMatches (· = '/') path = trimMatches (· = '/') path' := by
    rw [← trimMatches_rdropWhile path, bases, trimMatches_rdropWhile]
  rw [normalizeBasePath, trimmed]
  rfl

/-- Distinct directories are enough. -/
theorem mirrors_of_unmistakable (unmistakable : Unmistakable specs) : Mirrors specs := by
  constructor
  · intro mount member rel
    have first : specs.mounts.find? (fun other => mountSlug other.path = mountSlug mount.path) =
        some mount := by
      cases found : specs.mounts.find? fun other => mountSlug other.path = mountSlug mount.path with
      | none => exact absurd (decide_eq_true rfl) (List.find?_eq_none.mp found mount member)
      | some other =>
        have hit := List.find?_some found
        rw [unmistakable other (List.mem_of_find?_eq_some found) mount member
          (mountSlug_eq_iff.mp (of_decide_eq_true hit))]
    rw [remoteSpecPath_localPath, first]
    rfl
  · intro mount member other member' rel rel' same
    rw [localPath_eq, localPath_eq] at same
    have behind := List.append_cancel_left same
    have cut : splitOnce ['/'] (mountSlug mount.path ++ '/' :: (mount.subtree ++ '/' :: rel)) =
        some (mountSlug mount.path, mount.subtree ++ '/' :: rel) :=
      splitOnce_char_of_not_mem (slash_notMem_mountSlug mount.path)
    rw [behind, splitOnce_char_of_not_mem (slash_notMem_mountSlug other.path)] at cut
    obtain ⟨slugs, tails⟩ := Prod.mk.inj (Option.some.inj cut)
    have isOther := unmistakable mount member other member' (mountSlug_eq_iff.mp slugs.symm)
    subst isOther
    exact ⟨rfl, (List.cons.inj (List.append_cancel_left tails)).2.symm⟩

/-- Two mounts with one directory are read back below one of them. -/
theorem unmistakable_of_mirrors (mirrors : Mirrors specs) : Unmistakable specs := by
  intro mount member other member' related
  have slugs := mountSlug_eq_iff.mpr related
  have first := mirrors.back mount member []
  have second := mirrors.back other member' []
  rw [remoteSpecPath_localPath] at first second
  rw [slugs] at first
  obtain ⟨found, isFound, same⟩ := Option.map_eq_some_iff.mp first
  obtain ⟨found', isFound', same'⟩ := Option.map_eq_some_iff.mp second
  have one : found = found' := Option.some.inj (isFound.symm.trans isFound')
  subst one
  have paths := (normalizeBasePath_of_joinPath same).symm.trans (normalizeBasePath_of_joinPath same')
  exact List.inj_on_of_nodup_map specs.distinct member member' paths

end Paths

/-- **A mirror is faithful exactly if no two mounts' paths turn into each other** by exchanges of
slashes and double underscores, where the root mount is called `root`. -/
theorem mirror_paths_round_trip_iff (specs : SpecMounts) : Mirrors specs ↔ Unmistakable specs :=
  ⟨unmistakable_of_mirrors, mirrors_of_unmistakable⟩

/-! Two mounts that share a directory, and one that is called like the root mount's. -/

def nestedAndUnderscored : SpecMounts where
  mounts := [⟨"/a/b", ".queries", by decide⟩, ⟨"/a__b", ".queries", by decide⟩]
  distinct := by decide

def rootAndNamed : SpecMounts where
  mounts := [⟨"/", ".queries", by decide⟩, ⟨"/root", ".queries", by decide⟩]
  distinct := by decide

/-- The specs `x` of both mounts have one local file, which is read back as the first mount's. -/
theorem mirrored_specs_collide :
    localSpecPath "/a/b" ".queries" "x" = localSpecPath "/a__b" ".queries" "x" ∧
      remoteSpecPath (localSpecPath "/a__b" ".queries" "x") nestedAndUnderscored.mounts =
        some "/a/b/.queries/x".toList ∧
      ¬ Mirrors nestedAndUnderscored ∧ ¬ Mirrors rootAndNamed := by
  refine ⟨by decide, by decide +kernel, fun mirrors => ?_, fun mirrors => ?_⟩
  · have same := (mirrors.apart ⟨"/a/b", ".queries", by decide⟩ List.mem_cons_self
      ⟨"/a__b", ".queries", by decide⟩ (List.mem_cons_of_mem _ List.mem_cons_self) [] []
      (by decide)).1
    exact absurd (congrArg SpecMount.path same) (by decide)
  · have same := (mirrors.apart ⟨"/", ".queries", by decide⟩ List.mem_cons_self
      ⟨"/root", ".queries", by decide⟩ (List.mem_cons_of_mem _ List.mem_cons_self) [] []
      (by decide)).1
    exact absurd (congrArg SpecMount.path same) (by decide)

end Rs2Runtime.Cli.Mirror
