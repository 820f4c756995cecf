import Rs2Runtime.Adapters.LocalFs
import Rs2Runtime.Router.Path
import Rs2Runtime.Text.UnixPath

/-!
Contract: which paths of the file system the local store can be led to.

Owns:
- resolution of a tenant's path to the path handed to the system, below the store's root;
- stores rooted under a path, one inside the other, as one function of the path;
- the components of a resolved path.

Does not own: what the store does with a resolved path, or symbolic links.
-/

namespace Rs2Runtime

open Text Data Json Capabilities
open Text.UnixPath

namespace Capabilities

/-! ## Roots of a mount's store -/

/-- A relative storage root; none when there is none. -/
def sanitizedStoreRoot (store : Value) : Except RsError (Option Str) :=
  match (((store.get? "root").bind Value.asStr).map trim).filter (· ≠ []) with
  | none => .ok none
  | some root =>
    if root.head? = some '/' ∨ root.head? = some '\\' ∨ (utf8 root)[1]? = some 58 then
      .error (.badRequest (("store root '" : Str) ++ root ++
        ("' must be a relative path (no leading '/'/'\\' or drive letter)" : Str)))
    else if ((root.map fun c => if c = '\\' then '/' else c).splitOn '/').any
        (· = ("..".toList : Str)) then
      .error (.badRequest (("store root '" : Str) ++ root ++
        ("' must not contain a '..' path segment" : Str)))
    else
      .ok (some (trimMatches (· == '/') root))

/-! ## Stores inside stores -/

/-- The store with every path changed before the call. -/
def FileStore.onPaths {σ : Type} (store : FileStore σ) (change : Str → Str) : FileStore σ where
  head := fun path => store.head (change path)
  read := fun path => store.read (change path)
  write := fun path => store.write (change path)
  delete := fun path => store.delete (change path)
  rename := fun source target => store.rename (change source) (change target)
  deleteDir := fun path => store.deleteDir (change path)
  deleteDirAll := fun path => store.deleteDirAll (change path)

/-- The path that a path stands for under roots put around a store, the first of them outermost. -/
def nestedPath (roots : List Str) (path : Str) : Str :=
  roots.foldr (fun root inner => joinPath (trimMatches (· = '/') root) inner) path

/-- Roots put around a store one after the other change the path, and nothing else. -/
theorem foldl_prefixed_eq_onPaths {σ : Type} (store : FileStore σ) (roots : List Str) :
    roots.foldl FileStore.prefixed store = store.onPaths (nestedPath roots) := by
  induction roots generalizing store with
  | nil => rfl
  | cons root rest ih =>
    rw [List.foldl_cons, ih]
    rfl

/-- The segments of every root stand before those of the path. -/
theorem segments_nestedPath (roots : List Str) (path : Str) :
    segments (nestedPath roots path) = roots.flatMap segments ++ segments path := by
  induction roots with
  | nil => rfl
  | cons root rest ih =>
    show segments (joinPath _ (nestedPath rest path)) = _
    rw [segments_joinPath, ih, segments_trimSlashes, List.flatMap_cons,
      List.append_assoc]

/-- Views of views of a store address it below all their roots in turn, and change nothing
else. -/
theorem nested_views_relocate {σ : Type} (store : FileStore σ) (roots : List Str) :
    ∃ place : Str → Str, roots.foldl FileStore.prefixed store = store.onPaths place ∧
      ∀ path, segments (place path) = roots.flatMap segments ++ segments path :=
  ⟨nestedPath roots, foldl_prefixed_eq_onPaths store roots, segments_nestedPath roots⟩

end Capabilities

namespace Adapters.LocalFs

open Router

/-! ## Resolution below the store's root -/

/-- The path handed to the system for a tenant's path. -/
def resolveFrom (root tenant path : Str) : Except RsError Str := do
  let _ ← validatePath path
  let _ ← Outcome.require (tenant ≠ [] ∧ tenant.all fun c => c ≠ '/' && c ≠ '\\' && c ≠ '.')
    (RsError.internal "invalid tenant id for file store")
  return (segments path).foldl push (push root tenant)

/-- The path handed to the system for a path of a mount whose store is configured by `config`;
`inner` are the roots of views into that store. -/
def resolveMount (root tenant : Str) (config : Value) (inner : List Str) (path : Str) :
    Except RsError Str := do
  let mountRoot ← sanitizedStoreRoot config
  resolveFrom root tenant (nestedPath (mountRoot.toList ++ inner) path)

/-- The components below the store's root are those of `resolve`, pushed in order. -/
theorem resolveFrom_eq_map_resolve (root tenant path : Str) :
    resolveFrom root tenant path = (resolve tenant path).map fun full => full.foldl push root := by
  unfold resolveFrom resolve
  cases validatePath path with
  | error refusal => rfl
  | ok passed =>
    simp only [Outcome.require]
    split <;> rfl

/-- The pieces of a text are made of its characters. -/
theorem mem_of_mem_splitOn {sep c : Char} {s piece : Str} (member : piece ∈ s.splitOn sep)
    (within : c ∈ piece) : c ∈ s := by
  have interspersed (pieces : List Str) (among : piece ∈ pieces) :
      piece ∈ pieces.intersperse [sep] := by
    fun_induction List.intersperse [sep] pieces <;> grind
  have restored : [sep].intercalate (s.splitOn sep) = s := List.intercalate_splitOn sep
  rw [← restored]
  exact List.mem_flatten.mpr ⟨piece, interspersed _ member, within⟩

/-- A name that leads one step down, whatever system reads it. -/
structure Plain (name : Str) : Prop where
  nonempty : name ≠ []
  notSelf : name ≠ ['.']
  notParent : name ≠ ['.', '.']
  noSlash : '/' ∉ name
  noBackslash : '\\' ∉ name
  noDrive : isDriveLetter name = false

/-- The segments of a valid path that are not a single dot are plain. -/
theorem plain_of_validatePath {path name : Str} (valid : validatePath path = .ok ())
    (member : name ∈ locate (segments path)) : Plain name := by
  obtain ⟨segment, notSelf⟩ := List.mem_filter.mp member
  obtain ⟨piece, nonempty⟩ := List.mem_filter.mp segment
  obtain ⟨noBackslash, safe⟩ := checkCandidate_eq_ok (checkCandidate_of_validatePath valid)
  have climbs := (safe name piece).1
  exact {
    nonempty := by simpa using nonempty
    notSelf := by simpa using notSelf
    notParent := by
      rintro rfl
      exact absurd climbs (by decide)
    noSlash := not_mem_of_mem_splitOn piece
    noBackslash := fun within => noBackslash (mem_of_mem_splitOn piece within)
    noDrive := (safe name piece).2 }

theorem componentOf_of_plain {name : Str} (plain : Plain name) :
    componentOf name = some (.normal name) := by
  unfold componentOf
  rw [if_neg plain.notSelf, if_neg plain.notParent]

/-- The components of plain names, single dots among them skipped. -/
theorem filterMap_componentOf {names : List Str} (plain : ∀ name ∈ locate names, Plain name) :
    names.filterMap componentOf = (locate names).map .normal := by
  induction names with
  | nil => rfl
  | cons name rest ih =>
    by_cases self : name = ['.']
    · subst self
      exact ih plain
    · have kept : locate (name :: rest) = name :: locate rest :=
        List.filter_cons_of_pos (by simpa using self)
      rw [kept] at plain ⊢
      rw [List.filterMap_cons_some (componentOf_of_plain (plain name List.mem_cons_self)),
        ih fun later member => plain later (List.mem_cons_of_mem _ member)]
      rfl

/-- A resolved path is the store's root, the tenant, and plain names. -/
theorem components_of_resolveFrom {root tenant path full : Str}
    (resolved : resolveFrom root tenant path = .ok full) :
    components full =
        components root ++ .normal tenant :: (locate (segments path)).map .normal ∧
      ∀ name ∈ locate (segments path), Plain name := by
  simp only [resolveFrom, Outcome.bind_eq_ok, Outcome.require_eq_ok, Outcome.pure_eq_ok]
    at resolved
  obtain ⟨⟨⟩, valid, ⟨⟩, ⟨nonempty, safe⟩, rfl⟩ := resolved
  have plain : ∀ name ∈ locate (segments path), Plain name :=
    fun name member => plain_of_validatePath valid member
  have dotless : '.' ∉ tenant := by
    intro member
    simpa using List.all_eq_true.mp safe _ member
  have whole : '/' ∉ tenant := by
    intro member
    simpa using List.all_eq_true.mp safe _ member
  have moves : tenant ≠ ['.'] := by
    rintro rfl
    exact dotless List.mem_cons_self
  have stays : tenant ≠ ['.', '.'] := by
    rintro rfl
    exact dotless List.mem_cons_self
  have named : componentOf tenant = some (.normal tenant) := by
    unfold componentOf
    rw [if_neg moves, if_neg stays]
  have pushed : ∀ name ∈ segments path, '/' ∉ name ∧ name ≠ [] := by
    intro name member
    obtain ⟨piece, filled⟩ := List.mem_filter.mp member
    exact ⟨not_mem_of_mem_splitOn piece, by simpa using filled⟩
  refine ⟨?_, plain⟩
  rw [components_foldl_push (push_ne_nil nonempty) pushed,
    components_push root whole nonempty moves, named, filterMap_componentOf plain, List.append_assoc]
  rfl

/-- Below one root, what lies in a tenant's directory is that tenant's. -/
theorem tenant_of_initial {base rest : List Component} {tenant other : Str}
    (inside : base ++ [.normal other] <+: base ++ .normal tenant :: rest) : other = tenant := by
  rw [List.prefix_append_right_inj] at inside
  have first := (List.cons_prefix_cons.mp inside).1
  exact Component.normal.inj first

/-- Whatever the root of the store, the configured root of the mount, the roots of views into it
and the path: a resolved path is the store's root, the tenant and plain names, the names of the
configured roots first.  It is in no directory of another tenant. -/
theorem resolved_paths_are_contained {root tenant : Str} {config : Value} {inner : List Str}
    {path full : Str} (resolved : resolveMount root tenant config inner path = .ok full) :
    (∃ mountRoot names,
      sanitizedStoreRoot config = .ok mountRoot ∧
      components full = components root ++ .normal tenant :: names.map .normal ∧
      (∀ name ∈ names, Plain name) ∧
      locate ((mountRoot.toList ++ inner).flatMap segments) <+: names) ∧
    ∀ other dir, other ≠ tenant → resolveFrom root other ("/" : Str) = .ok dir →
      ¬ components dir <+: components full := by
  obtain ⟨mountRoot, configured, located⟩ := Outcome.bind_eq_ok.mp resolved
  obtain ⟨shape, plain⟩ := components_of_resolveFrom located
  rw [segments_nestedPath] at shape plain
  refine ⟨⟨mountRoot, _, configured, shape, plain, ?_⟩, ?_⟩
  · unfold locate
    rw [List.filter_append]
    exact List.prefix_append _ _
  · intro other dir distinct directory inside
    have top := (components_of_resolveFrom directory).1
    rw [top, shape] at inside
    exact distinct (tenant_of_initial inside)

/-- A path with doubled separators, a single dot and escapes, below a configured root. -/
theorem escaped_path_is_contained :
    resolveMount "/srv" "t" (.obj [("root", .str "site/")]) [] "/a//./b%20c" =
        .ok ("/srv/t/site/a/./b%20c" : Str) ∧
      ¬ components "/srv/u" <+: components "/srv/t/site/a/./b%20c" := by
  have resolved : resolveMount "/srv" "t" (.obj [("root", .str "site/")]) [] "/a//./b%20c" =
      .ok ("/srv/t/site/a/./b%20c" : Str) := by decide +kernel
  exact ⟨resolved, (resolved_paths_are_contained resolved).2 ("u" : Str) _ (by decide)
    (by decide +kernel)⟩

end Adapters.LocalFs

end Rs2Runtime
