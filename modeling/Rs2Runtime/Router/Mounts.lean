import Rs2Runtime.Data.Outcome
import Rs2Runtime.Wrapper.Access

/-!
Contract: mount tables with longest-prefix matching on segment boundaries.

Owns:
- the normal form of mount paths, and tables without two mounts at one path;
- the mount a path is routed to, as the longest one that covers it.
-/

namespace Rs2Runtime.Router

open Text Data Wrapper

/-- A mount path as the table keys it: one leading slash, no trailing one, and the root mount
as the empty text. -/
def normalizeBasePath (path : Str) : Str :=
  let normalized := '/' :: trimMatches (· = '/') path
  if normalized = "/" then [] else normalized

/-- A normalized path has no trailing slash. -/
theorem rdropWhile_normalizeBasePath (path : Str) :
    (normalizeBasePath path).rdropWhile (· = '/') = normalizeBasePath path := by
  unfold normalizeBasePath
  dsimp only
  split
  · rfl
  next notRoot =>
    have inside : trimMatches (· = '/') path ≠ [] := fun none_ => notRoot (by rw [none_]; rfl)
    refine List.rdropWhile_eq_self_iff.mpr fun nonempty => ?_
    rw [List.getLast_cons inside]
    exact List.rdropWhile_last_not _ _ inside

/-- Whether a mount answers for a path. -/
def covers (mount : Mount) (path : Str) : Bool :=
  mount.basePath = [] || inScope mount.basePath path

/-- Longer mount paths first. -/
def longerFirst (left right : Mount) : Prop :=
  utf8Len right.basePath ≤ utf8Len left.basePath

instance : DecidableRel longerFirst := fun _ _ => Nat.decLe _ _

instance : Std.Total longerFirst := ⟨fun left right =>
  Nat.le_total (utf8Len right.basePath) (utf8Len left.basePath)⟩

instance : IsTrans Mount longerFirst := ⟨fun _ _ _ first second => Nat.le_trans second first⟩

/-- The mounts of a tenant, at most one at each path, longer paths first. -/
structure MountTable where
  mounts : List Mount
  normal : ∀ mount ∈ mounts, ∃ path, mount.basePath = normalizeBasePath path
  distinct : (mounts.map Mount.basePath).Nodup
  sorted : mounts.Pairwise longerFirst

/-- The first path that occurs a second time. -/
def firstDuplicate : (seen rest : List Str) → Option Str
  | _, [] => none
  | seen, path :: rest =>
    if path ∈ seen then some path else firstDuplicate (path :: seen) rest

theorem nodup_of_firstDuplicate_eq_none {seen rest : List Str}
    (fresh : firstDuplicate seen rest = none) : rest.Nodup ∧ ∀ path ∈ rest, path ∉ seen := by
  induction rest generalizing seen with
  | nil => exact ⟨List.nodup_nil, nofun⟩
  | cons path rest ih =>
    unfold firstDuplicate at fresh
    split at fresh
    · cases fresh
    next unseen =>
      obtain ⟨nodup, apart⟩ := ih fresh
      have later : path ∉ rest := fun member => apart path member List.mem_cons_self
      refine ⟨List.nodup_cons.mpr ⟨later, nodup⟩, ?_⟩
      intro other member
      rcases List.mem_cons.mp member with rfl | member
      · exact unseen
      · exact fun inSeen => apart other member (List.mem_cons_of_mem _ inSeen)

/-- The mounts under normalized paths. -/
def normalizeMounts (mounts : List Mount) : List Mount :=
  mounts.map fun mount => { mount with basePath := normalizeBasePath mount.basePath }

namespace MountTable

/-- Build a table; two mounts at one path are refused. -/
def new (mounts : List Mount) : Except RsError MountTable :=
  match duplicate : firstDuplicate [] ((normalizeMounts mounts).map Mount.basePath) with
  | some path =>
    .error (.badRequest (("duplicate mount path '" : Str) ++
      (if path = [] then ("/" : Str) else path) ++ ("'" : Str)))
  | none =>
    .ok {
      mounts := (normalizeMounts mounts).insertionSort longerFirst
      normal := by
        intro mount member
        obtain ⟨given, -, rfl⟩ := List.mem_map.mp ((List.mem_insertionSort longerFirst).mp member)
        exact ⟨given.basePath, rfl⟩
      distinct := by
        have sorted := List.perm_insertionSort longerFirst (normalizeMounts mounts)
        exact (sorted.map Mount.basePath).nodup_iff.mpr
          (nodup_of_firstDuplicate_eq_none duplicate).1
      sorted := List.pairwise_insertionSort longerFirst _ }

/-- The longest mount that covers a path. -/
def route (table : MountTable) (path : Str) : Option Mount :=
  table.mounts.find? fun mount => covers mount path

variable {table : MountTable} {path : Str} {mount : Mount}

theorem route_spec (routed : table.route path = some mount) :
    mount ∈ table.mounts ∧ covers mount path = true :=
  ⟨List.mem_of_find?_eq_some routed, List.find?_some (p := fun other => covers other path) routed⟩

/-- No mount that covers the path is longer than the one it is routed to. -/
theorem route_longest (routed : table.route path = some mount) {other : Mount}
    (member : other ∈ table.mounts) (covering : covers other path = true) :
    utf8Len other.basePath ≤ utf8Len mount.basePath := by
  obtain ⟨-, before, after, split, earlier⟩ := List.find?_eq_some_iff_append.mp routed
  rw [split] at member
  rcases List.mem_append.mp member with inBefore | inRest
  · have uncovered := earlier other inBefore
    rw [covering] at uncovered
    cases uncovered
  · rcases List.mem_cons.mp inRest with rfl | inAfter
    · exact Nat.le_refl _
    · have sorted := table.sorted
      rw [split] at sorted
      exact (List.pairwise_cons.mp (List.pairwise_append.mp sorted).2.1).1 other inAfter

theorem exists_route (member : mount ∈ table.mounts) (covering : covers mount path = true) :
    ∃ found, table.route path = some found :=
  Option.isSome_iff_exists.mp (List.find?_isSome.mpr ⟨mount, member, covering⟩)

/-- The path of a covering mount begins the path it covers. -/
theorem basePath_prefix_of_covers {mount : Mount} {path : Str}
    (covering : covers mount path = true) : mount.basePath <+: path := by
  simp only [covers, inScope, Bool.or_eq_true, decide_eq_true_eq,
    List.isPrefixOf_iff_prefix] at covering
  rcases covering with root | same | below
  · rw [root]
    exact List.nil_prefix
  · rw [same]
  · exact (List.prefix_append _ _).trans below

/-- Leading parts of one text with the same encoded length are the same. -/
theorem prefix_eq_of_utf8Len {left right text : Str} (first : left <+: text)
    (second : right <+: text) (measured : utf8Len left = utf8Len right) : left = right :=
  Option.some.inj <|
    (sliceTo_eq_some.mpr ⟨first, rfl⟩).symm.trans (sliceTo_eq_some.mpr ⟨second, measured.symm⟩)

/-- A mount that covers a path is the one it is routed to, if no longer mount covers it. -/
theorem route_eq_of_longest (member : mount ∈ table.mounts) (covering : covers mount path = true)
    (longest : ∀ other ∈ table.mounts, covers other path = true →
      utf8Len other.basePath ≤ utf8Len mount.basePath) :
    table.route path = some mount := by
  obtain ⟨found, routed⟩ := exists_route member covering
  obtain ⟨foundMember, foundCovers⟩ := route_spec routed
  have measured : utf8Len found.basePath = utf8Len mount.basePath :=
    Nat.le_antisymm (longest found foundMember foundCovers)
      (route_longest routed member covering)
  have same : found.basePath = mount.basePath :=
    prefix_eq_of_utf8Len (basePath_prefix_of_covers foundCovers)
      (basePath_prefix_of_covers covering) measured
  rw [routed, List.inj_on_of_nodup_map table.distinct foundMember member same]

end MountTable

end Rs2Runtime.Router
