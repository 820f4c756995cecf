import Rs2Runtime.Router.Mounts

/-!
Contract: routing in terms of the segments of a path.

Owns:
- a path as the list of its pieces between slashes, empty ones included;
- covering of a path as a prefix of that list;
- the mount a path is routed to as the one with the longest such prefix, whatever the order of
  configuration, and the path split at it.
-/

namespace Rs2Runtime.Router

open Text Data Wrapper

/-- A path split at every slash. -/
def pieces (path : Str) : List Str :=
  path.splitOn '/'

/-! ## Prefixes of pieces -/

theorem pieces_append_slash (left right : Str) :
    pieces (left ++ '/' :: right) = pieces left ++ pieces right :=
  List.splitOn_append_cons_self left right

theorem intercalate_pieces (path : Str) : ['/'].intercalate (pieces path) = path :=
  List.intercalate_splitOn '/'

theorem pieces_ne_nil (path : Str) : pieces path ≠ [] :=
  List.splitOn_ne_nil '/' path

theorem intercalate_append {left right : List Str} (someLeft : left ≠ []) (someRight : right ≠ []) :
    ['/'].intercalate (left ++ right) =
      ['/'].intercalate left ++ '/' :: ['/'].intercalate right := by
  induction left with
  | nil => exact absurd rfl someLeft
  | cons first rest ih =>
    obtain ⟨second, later, rfl⟩ := List.exists_cons_of_ne_nil someRight
    cases rest with
    | nil => simp [List.intercalate]
    | cons next rest =>
      have tail := ih (List.cons_ne_nil _ _)
      simp only [List.intercalate, List.cons_append, List.intersperse_cons_cons,
        List.flatten_cons] at tail ⊢
      rw [tail]
      simp

/-- The pieces of one path begin those of another if the paths are the same, or the other goes on
after a slash. -/
theorem pieces_prefix_iff (left right : Str) :
    pieces left <+: pieces right ↔ right = left ∨ left ++ ['/'] <+: right := by
  constructor
  · rintro ⟨rest, whole⟩
    have back := intercalate_pieces right
    rw [← whole] at back
    by_cases ends : rest = []
    · left
      rw [← back, ends, List.append_nil, intercalate_pieces]
    · right
      rw [intercalate_append (pieces_ne_nil left) ends, intercalate_pieces] at back
      exact ⟨['/'].intercalate rest, by simpa using back⟩
  · rintro (same | ⟨rest, whole⟩)
    · rw [same]
    · have shape : right = left ++ '/' :: rest := by simpa using whole.symm
      rw [shape, pieces_append_slash]
      exact List.prefix_append _ _

/-- A mount covers an absolute path if its pieces begin the path's. -/
theorem covers_iff_pieces {path : Str} (absolute : path.head? = some '/') (mount : Mount) :
    covers mount path = true ↔ pieces mount.basePath <+: pieces path := by
  have start : ['/'] <+: path := by
    cases path with
    | nil => cases absolute
    | cons c rest =>
      cases absolute
      exact ⟨rest, rfl⟩
  rw [pieces_prefix_iff]
  simp only [covers, inScope, Bool.or_eq_true, decide_eq_true_eq, List.isPrefixOf_iff_prefix]
  constructor
  · rintro (root | same)
    · exact .inr (by simpa [root] using start)
    · exact same
  · exact .inr

theorem utf8Len_append (left right : Str) :
    utf8Len (left ++ right) = utf8Len left + utf8Len right := by
  simp [utf8Len]

/-- Of two prefixes of a path, the one with more pieces is the longer text. -/
theorem length_pieces_le_iff {left right path : Str} (isLeft : pieces left <+: pieces path)
    (isRight : pieces right <+: pieces path) :
    (pieces left).length ≤ (pieces right).length ↔ utf8Len left ≤ utf8Len right := by
  -- One of the two begins the other; a proper one is followed by a slash.
  have shorter : ∀ {first second : Str}, pieces first <+: pieces second →
      second = first ∨ utf8Len first < utf8Len second := by
    intro first second begins
    rcases (pieces_prefix_iff first second).mp begins with same | ⟨rest, whole⟩
    · exact .inl same
    · have slash : utf8Len ['/'] = 1 := by decide
      right
      rw [← whole, utf8Len_append, utf8Len_append, slash]
      omega
  constructor
  · intro fewer
    rcases shorter (List.prefix_of_prefix_length_le isLeft isRight fewer) with same | less
    · rw [same]
    · omega
  · intro measured
    by_contra more
    have begins := List.prefix_of_prefix_length_le isRight isLeft (by omega)
    rcases shorter begins with same | less
    · rw [same] at more
      omega
    · omega

/-! ## Tables -/

namespace MountTable

variable {mounts : List Mount} {table : MountTable}

/-- A table is built of mounts at distinct paths. -/
theorem new_eq_ok (built : MountTable.new mounts = .ok table) :
    table.mounts = (normalizeMounts mounts).insertionSort longerFirst := by
  unfold MountTable.new at built
  split at built
  · cases built
  · cases built
    rfl

theorem mem_mounts (built : MountTable.new mounts = .ok table) (mount : Mount) :
    mount ∈ table.mounts ↔ mount ∈ normalizeMounts mounts := by
  rw [new_eq_ok built, List.mem_insertionSort]

theorem firstDuplicate_eq_none {seen rest : List Str} (nodup : rest.Nodup)
    (apart : ∀ path ∈ rest, path ∉ seen) : firstDuplicate seen rest = none := by
  induction rest generalizing seen with
  | nil => rfl
  | cons path rest ih =>
    obtain ⟨later, nodup⟩ := List.nodup_cons.mp nodup
    rw [firstDuplicate, if_neg (apart path List.mem_cons_self)]
    apply ih nodup
    intro other member inSeen
    rcases List.mem_cons.mp inSeen with rfl | before
    · exact later member
    · exact apart other (List.mem_cons_of_mem _ member) before

/-- Mounts that make a table make one in any order. -/
theorem exists_new_of_perm {reordered : List Mount} (built : MountTable.new mounts = .ok table)
    (perm : reordered.Perm mounts) : ∃ other, MountTable.new reordered = .ok other := by
  have samePaths : ((normalizeMounts reordered).map Mount.basePath).Perm
      (table.mounts.map Mount.basePath) := by
    rw [new_eq_ok built]
    refine List.Perm.map _ (.trans (perm.map _) ?_)
    exact (List.perm_insertionSort longerFirst _).symm
  have fresh : firstDuplicate [] ((normalizeMounts reordered).map Mount.basePath) = none :=
    firstDuplicate_eq_none (samePaths.nodup_iff.mpr table.distinct) fun _ _ => List.not_mem_nil
  unfold MountTable.new
  split
  · next path duplicate =>
      rw [fresh] at duplicate
      cases duplicate
  · exact ⟨_, rfl⟩

/-- The mount answers for the path by the longest list of pieces. -/
structure LongestSegments (mounts : List Mount) (path : Str) (mount : Mount) : Prop where
  configured : mount ∈ normalizeMounts mounts
  begins : pieces mount.basePath <+: pieces path
  longest : ∀ other ∈ normalizeMounts mounts, pieces other.basePath <+: pieces path →
    (pieces other.basePath).length ≤ (pieces mount.basePath).length

variable {path : Str}

theorem route_eq_some_iff (built : MountTable.new mounts = .ok table)
    (absolute : path.head? = some '/') (mount : Mount) :
    table.route path = some mount ↔ LongestSegments mounts path mount := by
  constructor
  · intro routed
    obtain ⟨member, covering⟩ := route_spec routed
    have begins := (covers_iff_pieces absolute mount).mp covering
    refine ⟨(mem_mounts built mount).mp member, begins, ?_⟩
    intro other configured otherBegins
    rw [length_pieces_le_iff otherBegins begins]
    exact route_longest routed ((mem_mounts built other).mpr configured)
      ((covers_iff_pieces absolute other).mpr otherBegins)
  · intro isLongest
    apply route_eq_of_longest
    · exact (mem_mounts built mount).mpr isLongest.configured
    · exact (covers_iff_pieces absolute mount).mpr isLongest.begins
    · intro other member covering
      have begins := (covers_iff_pieces absolute other).mp covering
      rw [← length_pieces_le_iff begins isLongest.begins]
      exact isLongest.longest other ((mem_mounts built other).mp member) begins

theorem route_eq_none_iff (built : MountTable.new mounts = .ok table)
    (absolute : path.head? = some '/') :
    table.route path = none ↔
      ∀ mount ∈ normalizeMounts mounts, ¬ pieces mount.basePath <+: pieces path := by
  rw [MountTable.route, List.find?_eq_none]
  constructor
  · intro uncovered mount configured begins
    exact uncovered mount ((mem_mounts built mount).mpr configured)
      ((covers_iff_pieces absolute mount).mpr begins)
  · intro none_ mount member covering
    exact none_ mount ((mem_mounts built mount).mp member)
      ((covers_iff_pieces absolute mount).mp covering)

/-- A path is cut at the end of the mount's path, between segments. -/
theorem segments_applyMount {url : MsgUrl} {mount : Mount} (member : mount ∈ table.mounts)
    (covering : covers mount url.path = true) :
    (url.applyMount mount.basePath).baseSegments ++
        (url.applyMount mount.basePath).serviceSegments =
      segments url.path := by
  obtain ⟨given, isNormal⟩ := table.normal mount member
  have trimmed : mount.basePath.rdropWhile (· = '/') = mount.basePath := by
    rw [isNormal]
    exact rdropWhile_normalizeBasePath given
  have rooted : ∀ service : Str,
      segments (if service = [] then ("/" : Str) else service) = segments service := by
    intro service
    split
    · next empty =>
        rw [empty]
        rfl
    · rfl
  show segments (mount.basePath.rdropWhile (· = '/')) ++
    segments (if url.path.drop (mount.basePath.rdropWhile (· = '/')).length = [] then ("/" : Str)
      else url.path.drop (mount.basePath.rdropWhile (· = '/')).length) = segments url.path
  rw [rooted, trimmed]
  simp only [covers, inScope, Bool.or_eq_true, decide_eq_true_eq,
    List.isPrefixOf_iff_prefix] at covering
  rcases covering with root | same | ⟨rest, below⟩
  · simp [root]
  · simp [same]
  · have shape : url.path = mount.basePath ++ '/' :: rest := by simpa using below.symm
    rw [shape, List.drop_left, segments_slash_cons, segments_append_slash]

/-- **Routing is by the longest prefix of segments**, the order of configuration does not count,
and the path is cut between segments. -/
theorem routing_by_longest_segments (mounts : List Mount) (table : MountTable) (url : MsgUrl)
    (built : MountTable.new mounts = .ok table) (absolute : url.path.head? = some '/') :
    (∀ mount, table.route url.path = some mount ↔ LongestSegments mounts url.path mount) ∧
      (table.route url.path = none ↔
        ∀ mount ∈ normalizeMounts mounts, ¬ pieces mount.basePath <+: pieces url.path) ∧
      (∀ reordered, reordered.Perm mounts →
        ∃ other, MountTable.new reordered = .ok other ∧
          other.route url.path = table.route url.path) ∧
      ∀ mount, table.route url.path = some mount →
        (url.applyMount mount.basePath).baseSegments ++
            (url.applyMount mount.basePath).serviceSegments =
          segments url.path := by
  refine ⟨route_eq_some_iff built absolute, route_eq_none_iff built absolute, ?_, ?_⟩
  · intro reordered perm
    obtain ⟨other, otherBuilt⟩ := exists_new_of_perm built perm
    refine ⟨other, otherBuilt, Option.ext fun mount => ?_⟩
    have sameMounts : ∀ candidate,
        candidate ∈ normalizeMounts reordered ↔ candidate ∈ normalizeMounts mounts :=
      fun candidate => (perm.map _).mem_iff
    rw [route_eq_some_iff otherBuilt absolute, route_eq_some_iff built absolute]
    constructor
    · intro isLongest
      exact ⟨(sameMounts mount).mp isLongest.configured, isLongest.begins,
        fun candidate configured => isLongest.longest candidate ((sameMounts _).mpr configured)⟩
    · intro isLongest
      exact ⟨(sameMounts mount).mpr isLongest.configured, isLongest.begins,
        fun candidate configured => isLongest.longest candidate ((sameMounts _).mp configured)⟩
  · intro mount routed
    obtain ⟨member, covering⟩ := route_spec routed
    exact segments_applyMount member covering

/-! Two mounts, of which one lies below the other. -/

def nestedMounts : List Mount :=
  [⟨"/files/", "file", .null⟩, ⟨"files/deep", "file", .null⟩]

theorem nested_path_is_routed_by_segments :
    ∃ table, MountTable.new nestedMounts = .ok table ∧
      LongestSegments nestedMounts "/files/deep/x" ⟨"/files/deep", "file", .null⟩ := by
  obtain ⟨table, built, routed⟩ : ∃ table, MountTable.new nestedMounts = .ok table ∧
      table.route "/files/deep/x" = some ⟨"/files/deep", "file", .null⟩ :=
    ⟨_, rfl, by decide +kernel⟩
  refine ⟨table, built, ?_⟩
  exact ((routing_by_longest_segments nestedMounts table
    (Message.request .get "/files/deep/x" "t" "trace").url built rfl).1 _).mp routed

end MountTable

end Rs2Runtime.Router
