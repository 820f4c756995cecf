import Rs2Runtime.Data.OrderedMap

/-!
Contract: trees of directories and files.

Owns:
- trees in which everything lies in existing directories and no file is a directory;
- creating directories, placing, removing and moving files, and removing what lies below a
  directory, each keeping that shape;
- what each of them does to the files and the directories.
-/

namespace Rs2Runtime.Data

/-- Files and directories by their locations, outermost name first. -/
structure FileTree (ν κ : Type) [DecidableEq ν] where
  files : OrderedMap (List ν) κ
  dirs : List (List ν)
  rooted : ∀ location, (files.get? location).isSome ∨ location ∈ dirs →
    ∀ dir, dir <+: location → dir ≠ location → dir ∈ dirs
  apart : ∀ dir ∈ dirs, files.get? dir = none

namespace FileTree

theorem prefix_dropLast {ν : Type} {dir location : List ν} (below : dir <+: location)
    (proper : dir ≠ location) : dir <+: location.dropLast := by
  rcases List.eq_nil_or_concat location with rfl | ⟨front, last, rfl⟩
  · exact absurd (List.prefix_nil.mp below) proper
  · rw [List.concat_eq_append] at below proper ⊢
    rw [List.dropLast_concat]
    exact (List.prefix_concat_iff.mp below).resolve_left proper

variable {ν κ : Type} [DecidableEq ν]

/-- The tree of nothing. -/
def empty : FileTree ν κ where
  files := []
  dirs := []
  rooted := by
    rintro location (present | listed)
    · cases present
    · cases listed
  apart := by
    intro dir listed
    cases listed

/-- The file at a location. -/
def file? (tree : FileTree ν κ) (location : List ν) : Option κ :=
  tree.files.get? location

variable {tree : FileTree ν κ} {location : List ν} {content : κ}

/-- No file stands above a file. -/
theorem file?_eq_none_of_above {dir : List ν} (present : tree.file? location = some content)
    (below : dir <+: location) (proper : dir ≠ location) : tree.file? dir = none :=
  tree.apart dir (tree.rooted location (.inl (by rw [← file?, present]; rfl)) dir below proper)

/-- The directory of a file exists. -/
theorem dropLast_mem_dirs (present : tree.file? location = some content) (named : location ≠ []) :
    location.dropLast ∈ tree.dirs :=
  tree.rooted location (.inl (by rw [← file?, present]; rfl)) _ (List.dropLast_prefix location)
    (by
      intro same
      have shorter := congrArg List.length same
      rw [List.length_dropLast] at shorter
      have longer := List.length_pos_iff.mpr named
      omega)

theorem not_mem_dirs (present : tree.file? location = some content) : location ∉ tree.dirs := by
  intro listed
  have absent := tree.apart location listed
  rw [← file?, present] at absent
  cases absent

/-! ## Changes -/

/-- Create a directory with those above it, where no file is in the way. -/
def makeDirs (tree : FileTree ν κ) (dir : List ν)
    (free : ∀ above ∈ dir.inits, tree.file? above = none) : FileTree ν κ where
  files := tree.files
  dirs := dir.inits ++ tree.dirs
  rooted := by
    intro location present above below proper
    rcases present with present | listed
    · exact List.mem_append_right _ (tree.rooted location (.inl present) above below proper)
    · rcases List.mem_append.mp listed with made | known
      · exact List.mem_append_left _
          (List.mem_inits _ _ |>.mpr (below.trans ((List.mem_inits _ _).mp made)))
      · exact List.mem_append_right _ (tree.rooted location (.inr known) above below proper)
  apart := by
    intro made listed
    rcases List.mem_append.mp listed with above | known
    · exact free made above
    · exact tree.apart made known

/-- Take a file away. -/
def eraseFile (tree : FileTree ν κ) (location : List ν) : FileTree ν κ where
  files := OrderedMap.erase tree.files location
  dirs := tree.dirs
  rooted := by
    intro other present
    refine tree.rooted other (present.imp_left fun remains => ?_)
    by_cases same : other = location
    · rw [same, OrderedMap.get?_erase_self] at remains
      cases remains
    · rwa [OrderedMap.get?_erase_of_ne _ same] at remains
  apart := by
    intro dir listed
    by_cases same : dir = location
    · rw [same, OrderedMap.get?_erase_self]
    · rw [OrderedMap.get?_erase_of_ne _ same, tree.apart dir listed]

theorem dirs_eraseFile (tree : FileTree ν κ) (location : List ν) :
    (tree.eraseFile location).dirs = tree.dirs :=
  rfl

theorem file?_eraseFile (tree : FileTree ν κ) (erased location : List ν) :
    (tree.eraseFile erased).file? location =
      if location = erased then none else tree.file? location := by
  unfold file? eraseFile
  by_cases same : location = erased
  · rw [if_pos same, same, OrderedMap.get?_erase_self]
  · rw [if_neg same, OrderedMap.get?_erase_of_ne _ same]

/-- Take everything away that is gone, where what lies below something gone is gone. -/
def prune (tree : FileTree ν κ) (gone : List ν → Bool)
    (closed : ∀ dir location, gone dir = true → dir <+: location → gone location = true) :
    FileTree ν κ where
  files := tree.files.filter fun entry => !gone entry.1
  dirs := tree.dirs.filter fun dir => !gone dir
  rooted := by
    intro location present dir below proper
    have kept : gone location = false ∧
        ((tree.files.get? location).isSome ∨ location ∈ tree.dirs) := by
      rcases present with present | listed
      · rw [OrderedMap.get?_filter_keys tree.files (fun key => !gone key)] at present
        cases away : gone location with
        | true => simp [away] at present
        | false => exact ⟨rfl, .inl (by simpa [away] using present)⟩
      · have parts := List.mem_filter.mp listed
        exact ⟨by simpa using parts.2, .inr parts.1⟩
    refine List.mem_filter.mpr ⟨tree.rooted location kept.2 dir below proper, ?_⟩
    cases away : gone dir with
    | true => rw [closed dir location away below] at kept; cases kept.1
    | false => rfl
  apart := by
    intro dir listed
    rw [OrderedMap.get?_filter_keys tree.files (fun key => !gone key),
      tree.apart dir (List.mem_filter.mp listed).1]
    split <;> rfl

/-- Take a directory away with everything below it. -/
def removeTree (tree : FileTree ν κ) (dir : List ν) : FileTree ν κ :=
  tree.prune (fun location => dir.isPrefixOf location) (by
    intro gone location away below
    rw [List.isPrefixOf_iff_prefix] at away ⊢
    exact away.trans below)

/-- Take everything away that lies strictly below a directory. -/
def clear (tree : FileTree ν κ) (dir : List ν) : FileTree ν κ :=
  tree.prune (fun location => dir.isPrefixOf location && location ≠ dir) (by
    intro gone location away below
    simp only [Bool.and_eq_true, List.isPrefixOf_iff_prefix, decide_eq_true_eq] at away ⊢
    refine ⟨away.1.trans below, ?_⟩
    rintro rfl
    exact away.2 (below.eq_of_length_le away.1.length_le))

/-- Nothing lies strictly below a location. -/
def isBare (tree : FileTree ν κ) (dir : List ν) : Bool :=
  (tree.files.map Prod.fst ++ tree.dirs).all fun location =>
    !(dir.isPrefixOf location && location ≠ dir)

section Placing

variable [LT ν] [DecidableLT ν]

/-- Put a file into an existing directory, where no directory is in the way. -/
def placeFile (tree : FileTree ν κ) (location : List ν) (content : κ)
    (inside : location.dropLast ∈ tree.dirs) (free : location ∉ tree.dirs) : FileTree ν κ where
  files := OrderedMap.insert tree.files location content
  dirs := tree.dirs
  rooted := by
    intro other present dir below proper
    by_cases same : other = location
    · subst same
      by_cases direct : dir = other.dropLast
      · rw [direct]
        exact inside
      · exact tree.rooted _ (.inr inside) dir (prefix_dropLast below proper) direct
    · refine tree.rooted other (present.imp_left fun remains => ?_) dir below proper
      rwa [OrderedMap.get?_insert_of_ne _ _ same] at remains
  apart := by
    intro dir listed
    have other : dir ≠ location := by
      rintro rfl
      exact free listed
    rw [OrderedMap.get?_insert_of_ne _ _ other, tree.apart dir listed]

theorem file?_placeFile (tree : FileTree ν κ) (placed : List ν) (content : κ)
    (inside : placed.dropLast ∈ tree.dirs) (free : placed ∉ tree.dirs) (location : List ν) :
    (tree.placeFile placed content inside free).file? location =
      if location = placed then some content else tree.file? location :=
  OrderedMap.get?_insert tree.files placed location content

/-- Move a file, over one that stands at the target. -/
def moveFile (tree : FileTree ν κ) (source target : List ν) (content : κ)
    (inside : target.dropLast ∈ tree.dirs) (free : target ∉ tree.dirs) : FileTree ν κ :=
  (tree.eraseFile source).placeFile target content (by rwa [dirs_eraseFile])
    (by rwa [dirs_eraseFile])

theorem file?_moveFile (tree : FileTree ν κ) (source target : List ν) (content : κ)
    (inside : target.dropLast ∈ tree.dirs) (free : target ∉ tree.dirs) (location : List ν) :
    (tree.moveFile source target content inside free).file? location =
      if location = target then some content
      else if location = source then none
      else tree.file? location := by
  rw [moveFile, file?_placeFile, file?_eraseFile]

end Placing

end FileTree

end Rs2Runtime.Data
