import Rs2Runtime.Text.Basic

/-!
Contract: paths of a Unix file system, as texts with their components.

Owns:
- pushing a path onto another, which an absolute path replaces;
- the components of a path, with the leading ones that say where it starts;
- the components of a path built by pushing names.

Does not own: what a path leads to, symbolic links, or drive prefixes.
-/

namespace Rs2Runtime.Text.UnixPath

/-- A component of a path. -/
inductive Component where
  | rootDir
  | curDir
  | parentDir
  | normal (name : Str)
  deriving DecidableEq, Repr

def isAbsolute (path : Str) : Bool :=
  path.head? = some '/'

/-- The path with another pushed onto it. -/
def push (base path : Str) : Str :=
  if isAbsolute path then path
  else if base.getLast?.any (· ≠ '/') then base ++ '/' :: path
  else base ++ path

/-- The component a segment stands for; a single dot is skipped. -/
def componentOf (segment : Str) : Option Component :=
  if segment = ['.'] then none
  else if segment = ['.', '.'] then some .parentDir
  else some (.normal segment)

/-- Where a path starts: at the root, or at a single dot that is its first piece. -/
def start (path : Str) : List Component :=
  if isAbsolute path then [.rootDir]
  else if (path.splitOn '/').head? = some ['.'] then [.curDir]
  else []

def components (path : Str) : List Component :=
  start path ++ (segments path).filterMap componentOf

/-! ## Pushing a name -/

/-- Where a path starts is settled by what stands before a separator. -/
theorem start_append_slash (base path : Str) :
    start (base ++ '/' :: path) = if base = [] then [.rootDir] else start base := by
  cases base with
  | nil => rfl
  | cons c rest =>
    have pieces :
        (((c :: rest) ++ '/' :: path).splitOn '/').head? = ((c :: rest).splitOn '/').head? := by
      rw [List.splitOn_append_cons_self]
      exact List.head?_append_of_ne_nil _ (List.splitOn_ne_nil _ _)
    rw [if_neg (List.cons_ne_nil c rest)]
    unfold start
    rw [pieces]
    rfl

variable {name base : Str}

theorem isAbsolute_of_not_mem (whole : '/' ∉ name) : isAbsolute name = false := by
  cases name with
  | nil => rfl
  | cons c rest =>
    have ordinary : c ≠ '/' := fun slash => whole (slash ▸ List.mem_cons_self)
    simp [isAbsolute, ordinary]

/-- A name is the only segment of its text. -/
theorem filterMap_segments_of_not_mem (whole : '/' ∉ name) (nonempty : name ≠ []) :
    (segments name).filterMap componentOf = (componentOf name).toList := by
  rw [segments_of_not_mem whole, if_neg nonempty]
  cases named : componentOf name <;> simp [named]

/-- Pushed below a path that is not empty, a name adds its own component. -/
theorem components_push_of_ne_nil (below : base ≠ []) (whole : '/' ∉ name) (nonempty : name ≠ []) :
    components (push base name) = components base ++ (componentOf name).toList := by
  rw [← filterMap_segments_of_not_mem whole nonempty]
  unfold push
  rw [isAbsolute_of_not_mem whole, if_neg Bool.false_ne_true]
  by_cases ended : base.getLast? = some '/'
  · -- The separator is already there.
    obtain ⟨front, rfl⟩ := List.getLast?_eq_some_iff.mp ended
    rw [if_neg (by simp), List.append_assoc, List.singleton_append]
    simp only [components, start_append_slash, segments_append_slash, segments_nil,
      List.append_nil, List.filterMap_append, List.append_assoc]
  · have unfinished : base.getLast?.any (· ≠ '/') = true := by
      cases last : base.getLast? with
      | none => exact absurd (List.getLast?_eq_none_iff.mp last) below
      | some c =>
        rw [last] at ended
        simpa using ended
    rw [if_pos unfinished]
    simp only [components, start_append_slash, if_neg below, segments_append_slash,
      List.filterMap_append, List.append_assoc]

/-- A name that is not a single dot adds its component wherever it is pushed. -/
theorem components_push (base : Str) (whole : '/' ∉ name) (nonempty : name ≠ [])
    (moves : name ≠ ['.']) :
    components (push base name) = components base ++ (componentOf name).toList := by
  by_cases below : base = []
  · subst below
    have pushed : push [] name = name := by
      unfold push
      split <;> rfl
    have here : start name = [] := by
      simp [start, isAbsolute_of_not_mem whole, List.splitOn_eq_singleton whole, moves]
    rw [pushed]
    show start name ++ (segments name).filterMap componentOf = _
    rw [here, filterMap_segments_of_not_mem whole nonempty]
    rfl
  · exact components_push_of_ne_nil below whole nonempty

theorem push_ne_nil (nonempty : name ≠ []) : push base name ≠ [] := by
  unfold push
  split
  · exact nonempty
  · split
    · exact List.append_ne_nil_of_right_ne_nil _ (List.cons_ne_nil _ _)
    · exact List.append_ne_nil_of_right_ne_nil _ nonempty

/-- Names pushed one after the other below a path add their components in order. -/
theorem components_foldl_push (below : base ≠ []) {names : List Str}
    (whole : ∀ name ∈ names, '/' ∉ name ∧ name ≠ []) :
    components (names.foldl push base) = components base ++ names.filterMap componentOf := by
  induction names generalizing base with
  | nil => simp
  | cons name rest ih =>
    have first := whole name List.mem_cons_self
    rw [List.foldl_cons, ih (push_ne_nil first.2)
      fun later member => whole later (List.mem_cons_of_mem _ member),
      components_push_of_ne_nil below first.1 first.2, List.append_assoc]
    cases named : componentOf name <;> simp [named]

end Rs2Runtime.Text.UnixPath
