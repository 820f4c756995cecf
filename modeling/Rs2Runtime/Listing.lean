import Rs2Runtime.Data.Outcome
import Rs2Runtime.Data.Visibility
import Rs2Runtime.Json.Codec
import Rs2Runtime.Json.Double
import Rs2Runtime.Message.Error

/-!
Contract: projected listings, `$select` and `$sort` over the records of a dataset.

Owns:
- field paths, their parsing and lookup;
- the cross-type order of values and the multi-key order of records;
- projection to field paths;
- that order and projection read a record only through the paths they name.
-/

namespace Rs2Runtime.Listing

open Text Data Data.Outcome Json

/-! ## Field paths -/

/-- A parsed dot-path into a JSON record. -/
abbrev FieldPath := List Str

/-- Parse a dot-path with non-empty segments. -/
def FieldPath.parse (s : Str) : Except RsError FieldPath :=
  if s = [] ∨ [] ∈ s.splitOn '.' then
    .error (.badRequest
      (("invalid field path '" : Str) ++ s ++
        ("': expected dot-separated non-empty segments" : Str)))
  else
    .ok (s.splitOn '.')

/-- The value at a path; none where a segment is missing or a non-object intervenes. -/
def lookup : FieldPath → Value → Option Value
  | [], record => some record
  | segment :: rest, record => (record.get? segment).bind (lookup rest)

inductive Dir where
  | asc
  | desc
  deriving DecidableEq, Repr

/-- A standardised listing request. -/
structure ListSpec where
  fields : List FieldPath
  sort : List (FieldPath × Dir)
  take : Nat
  skip : Nat
  deriving DecidableEq, Repr

/-- One key of `$sort`; a leading minus sign reverses it. -/
def parseSortKey (key : Str) : Except RsError (FieldPath × Dir) :=
  match stripStart ['-'] (trim key) with
  | some rest => (FieldPath.parse rest).map fun path => (path, .desc)
  | none => (FieldPath.parse (trim key)).map fun path => (path, .asc)

/-- The keys of `$sort` in priority order. -/
def parseSort : Option Str → Except RsError (List (FieldPath × Dir))
  | none => .ok []
  | some keys => (keys.splitOn ',').mapM parseSortKey

/-- Parse the wire form of a listing request. -/
def ListSpec.parse (select : Str) (sort : Option Str) (take skip : Nat) :
    Except RsError ListSpec := do
  let fields ← (select.splitOn ',').mapM fun field => FieldPath.parse (trim field)
  let _ ← require (fields ≠ []) (RsError.badRequest "$select requires at least one field")
  let keys ← parseSort sort
  return { fields := fields, sort := keys, take := take, skip := skip }

theorem ne_nil_of_parse {s : Str} {path : FieldPath} (parsed : FieldPath.parse s = .ok path) :
    path ≠ [] := by
  unfold FieldPath.parse at parsed
  split at parsed
  · cases parsed
  · cases parsed
    exact List.splitOn_ne_nil _ _

theorem ne_nil_of_parseSortKey {key : Str} {parsed : FieldPath × Dir}
    (read : parseSortKey key = .ok parsed) : parsed.1 ≠ [] := by
  unfold parseSortKey at read
  split at read <;>
    · simp only [map_eq_ok] at read
      obtain ⟨path, pathRead, rfl⟩ := read
      exact ne_nil_of_parse pathRead

/-- Every sort key of a parsed request is one of the keys of its `$sort` text. -/
theorem ListSpec.exists_key_of_parse {select : Str} {sort : Option Str} {take skip : Nat}
    {spec : ListSpec} (parsed : ListSpec.parse select sort take skip = .ok spec)
    {key : FieldPath × Dir} (member : key ∈ spec.sort) :
    ∃ keys, sort = some keys ∧ ∃ text ∈ keys.splitOn ',', parseSortKey text = .ok key := by
  simp only [ListSpec.parse, bind_eq_ok, pure_eq_ok] at parsed
  obtain ⟨_, _, _, _, keys, read, rfl⟩ := parsed
  cases sort with
  | none =>
    cases read
    cases member
  | some text => exact ⟨text, rfl, exists_of_mem_mapM read member⟩

/-! ## The order of values and records -/

/-- Rank in the cross-type order. -/
def typeRank : Value → Nat
  | .null => 0
  | .bool false => 1
  | .bool true => 2
  | .num _ => 3
  | .str _ => 4
  | .arr _ => 5
  | .obj _ => 6

/-- Code-point order of texts. -/
def compareStr (left right : Str) : Ordering :=
  compareOfLessAndEq left right

/-- Numeric order; 64-bit integers compare exactly, everything else as doubles. -/
def compareNumbers (left right : Number) : Ordering :=
  match left.asI64, right.asI64 with
  | some a, some b => compare a b
  | _, _ =>
    match left.asU64, right.asU64 with
    | some a, some b => compare a b
    | _, _ => left.asF64.cmp right.asF64

/-- The order of two present values. -/
def compare (codec : Codec) (left right : Value) : Ordering :=
  if typeRank left = typeRank right then
    match left, right with
    | .num a, .num b => compareNumbers a b
    | .str a, .str b => compareStr a b
    | .arr _, .arr _ | .obj _, .obj _ => compareStr (codec.print left) (codec.print right)
    | _, _ => .eq
  else
    Ord.compare (typeRank left) (typeRank right)

/-- The order with a missing value below every present one. -/
def compareOptional (codec : Codec) : Option Value → Option Value → Ordering
  | none, none => .eq
  | none, some _ => .lt
  | some _, none => .gt
  | some left, some right => compare codec left right

/-- The order of two records under the sort keys. -/
def compareRecords (codec : Codec) (left right : Value) : List (FieldPath × Dir) → Ordering
  | [] => .eq
  | (path, dir) :: keys =>
    let ascending := compareOptional codec (lookup path left) (lookup path right)
    let order := match dir with
      | .asc => ascending
      | .desc => ascending.swap
    if order = .eq then compareRecords codec left right keys else order

/-! ## Projection -/

/-- Store a value at a path of an object; a scalar in the way wins over a longer path. -/
def insertPath (fields : Object) (path : FieldPath) (value : Value) : Object :=
  match path with
  | [] => fields
  | [leaf] => fields.insert leaf value
  | head :: next :: rest =>
    match fields.get? head with
    | none => fields.insert head (.obj (insertPath [] (next :: rest) value))
    | some (.obj nested) =>
      fields.insert head (.obj (insertPath nested (next :: rest) value))
    | some _ => fields

/-- One step of a projection: copy the value at a path, where there is one. -/
def projectPath (record : Value) (out : Object) (path : FieldPath) : Object :=
  match lookup path record with
  | some value => insertPath out path value
  | none => out

/-- Project a record to field paths. -/
def project (record : Value) (fields : List FieldPath) : Value :=
  .obj (fields.foldl (projectPath record) [])

/-- Sort key order of keyed records: the sort keys, then the record key. -/
def recordLe (codec : Codec) (sort : List (FieldPath × Dir)) (left right : Str × Value) : Prop :=
  (compareRecords codec left.2 right.2 sort).then (compareStr left.1 right.1) ≠ .gt

instance (codec : Codec) (sort : List (FieldPath × Dir)) :
    DecidableRel (recordLe codec sort) :=
  fun _ _ => inferInstanceAs (Decidable (_ ≠ _))

/-- The page of a whole dataset: sorted, cut and projected; with the number of records. -/
def sortPageProject (codec : Codec) (records : List (Str × Value)) (spec : ListSpec) :
    List (Str × Value) × Nat :=
  let page := ((records.insertionSort (recordLe codec spec.sort)).drop spec.skip).take spec.take
  (page.map fun entry => (entry.1, project entry.2 spec.fields), records.length)

/-! ## The order is total -/

theorem compareStr_swap (left right : Str) :
    compareStr right left = (compareStr left right).swap := by
  unfold compareStr compareOfLessAndEq
  rcases lt_trichotomy left right with below | rfl | above
  · rw [if_pos below, if_neg (not_lt_of_gt below), if_neg (ne_of_gt below)]
    rfl
  · rw [if_neg (lt_irrefl left), if_pos rfl]
    rfl
  · rw [if_pos above, if_neg (not_lt_of_gt above), if_neg (ne_of_gt above)]
    rfl

theorem compareStr_eq_eq {left right : Str} (same : compareStr left right = .eq) :
    left = right := by
  unfold compareStr compareOfLessAndEq at same
  split at same
  · cases same
  · split at same
    · assumption
    · cases same

theorem compareNumbers_swap (left right : Number) :
    compareNumbers right left = (compareNumbers left right).swap := by
  have integers (a b : Int) : Ord.compare b a = (Ord.compare a b).swap := Std.OrientedCmp.eq_swap
  have naturals (a b : Nat) : Ord.compare b a = (Ord.compare a b).swap := Std.OrientedCmp.eq_swap
  have doubles : right.asF64.cmp left.asF64 = (left.asF64.cmp right.asF64).swap := by
    unfold Double.cmp
    rw [min_comm]
    exact integers _ _
  unfold compareNumbers
  cases left.asI64 <;> cases right.asI64 <;> cases left.asU64 <;> cases right.asU64 <;>
    first | exact doubles | exact integers _ _ | exact naturals _ _

theorem compare_swap (codec : Codec) (left right : Value) :
    compare codec right left = (compare codec left right).swap := by
  unfold compare
  by_cases same : typeRank left = typeRank right
  · rw [if_pos same, if_pos same.symm]
    cases left <;> cases right <;>
      first | rfl | exact compareNumbers_swap _ _ | exact compareStr_swap _ _
  · have ranks (a b : Nat) : Ord.compare b a = (Ord.compare a b).swap := Std.OrientedCmp.eq_swap
    rw [if_neg same, if_neg (Ne.symm same)]
    exact ranks _ _

theorem compareRecords_swap (codec : Codec) (left right : Value) (sort : List (FieldPath × Dir)) :
    compareRecords codec right left sort = (compareRecords codec left right sort).swap := by
  induction sort with
  | nil => rfl
  | cons key keys ih =>
    obtain ⟨path, dir⟩ := key
    have fields : compareOptional codec (lookup path right) (lookup path left) =
        (compareOptional codec (lookup path left) (lookup path right)).swap := by
      cases lookup path left <;> cases lookup path right <;>
        first | rfl | exact compare_swap codec _ _
    unfold compareRecords
    rw [fields, ih]
    cases compareOptional codec (lookup path left) (lookup path right) <;> cases dir <;> rfl

theorem recordLe_total (codec : Codec) (sort : List (FieldPath × Dir)) (left right : Str × Value) :
    recordLe codec sort left right ∨ recordLe codec sort right left := by
  unfold recordLe
  rw [compareRecords_swap codec left.2 right.2, compareStr_swap left.1 right.1]
  cases compareRecords codec left.2 right.2 sort <;> cases compareStr left.1 right.1 <;> simp

variable {sort : List (FieldPath × Dir)}

/-- Records that stand on both sides of each other have the same key. -/
theorem key_eq_of_recordLe {codec : Codec} {left right : Str × Value}
    (below : recordLe codec sort left right) (above : recordLe codec sort right left) :
    left.1 = right.1 := by
  unfold recordLe at below above
  rw [compareRecords_swap codec left.2 right.2, compareStr_swap left.1 right.1] at above
  apply compareStr_eq_eq
  cases records : compareRecords codec left.2 right.2 sort <;>
    cases keys : compareStr left.1 right.1 <;> simp_all

/-! ## What order and projection read -/

section Hidden

variable {codec : Codec} {hides : Str → Bool}

/-- The values are equal, or objects that differ only under hidden keys. -/
def SameShown (hides : Str → Bool) (left right : Value) : Prop :=
  left = right ∨ ∃ a b, left = .obj a ∧ right = .obj b ∧
    OrderedMap.visible hides a = OrderedMap.visible hides b

variable {left right : Value} {head : Str}

theorem SameShown.lookup_eq (same : SameShown hides left right) (shownHead : hides head = false)
    (rest : FieldPath) :
    lookup (head :: rest) left = lookup (head :: rest) right := by
  rcases same with rfl | ⟨a, b, rfl, rfl, visibleEq⟩
  · rfl
  · have found := OrderedMap.agree_of_visible_eq visibleEq head shownHead
    rw [lookup, lookup, Value.get?_obj, Value.get?_obj, found]

/-- A sort key that starts at a shown field. -/
def StartsShown (hides : Str → Bool) (path : FieldPath) : Prop :=
  ∃ head rest, path = head :: rest ∧ hides head = false

theorem compareRecords_congr {left' right' : Value} (sameLeft : SameShown hides left left')
    (sameRight : SameShown hides right right') (shownKeys : ∀ key ∈ sort, StartsShown hides key.1) :
    compareRecords codec left right sort = compareRecords codec left' right' sort := by
  induction sort with
  | nil => rfl
  | cons key keys ih =>
    obtain ⟨path, dir⟩ := key
    obtain ⟨head, rest, rfl, shownHead⟩ := shownKeys (path, dir) List.mem_cons_self
    have later := ih fun key member =>
      shownKeys key (List.mem_cons_of_mem _ member)
    unfold compareRecords
    rw [sameLeft.lookup_eq shownHead, sameRight.lookup_eq shownHead, later]

/-- Writing at a shown path keeps agreement. -/
theorem agree_insertPath {left right : Object} (agree : OrderedMap.Agree hides left right)
    (shownHead : hides head = false) (rest : FieldPath) (value : Value) :
    OrderedMap.Agree hides (insertPath left (head :: rest) value)
      (insertPath right (head :: rest) value) := by
  cases rest with
  | nil => exact agree.insert head value
  | cons next rest =>
    unfold insertPath
    rw [agree head shownHead]
    split
    · exact agree.insert head _
    · exact agree.insert head _
    · exact agree

/-- Writing at a hidden path changes nothing that is shown. -/
theorem agree_insertPath_of_hidden (fields : Object) (hiddenHead : hides head = true)
    (rest : FieldPath) (value : Value) :
    OrderedMap.Agree hides (insertPath fields (head :: rest) value) fields := by
  cases rest with
  | nil => exact OrderedMap.agree_insert_of_hidden fields hiddenHead value
  | cons next rest =>
    unfold insertPath
    split
    · exact OrderedMap.agree_insert_of_hidden fields hiddenHead _
    · exact OrderedMap.agree_insert_of_hidden fields hiddenHead _
    · exact fun _ _ => rfl

theorem agree_projectPath (same : SameShown hides left right) {out out' : Object}
    (agree : OrderedMap.Agree hides out out') (path : FieldPath) :
    OrderedMap.Agree hides (projectPath left out path) (projectPath right out' path) := by
  cases path with
  | nil => exact agree
  | cons head rest =>
    cases hidden : hides head with
    | false =>
      unfold projectPath
      rw [same.lookup_eq hidden]
      split
      · exact agree_insertPath agree hidden rest _
      · exact agree
    | true =>
      have unchanged : ∀ (record : Value) (fields : Object),
          OrderedMap.Agree hides (projectPath record fields (head :: rest)) fields := by
        intro record fields
        unfold projectPath
        split
        · exact agree_insertPath_of_hidden fields hidden rest _
        · exact fun _ _ => rfl
      exact (unchanged left out).trans (agree.trans (unchanged right out').symm)

theorem ordered_insertPath {fields : Object} (ordered : OrderedMap.Ordered fields)
    (path : FieldPath) (value : Value) : OrderedMap.Ordered (insertPath fields path value) := by
  unfold insertPath
  split
  · exact ordered
  · exact ordered.insert _ _
  · split
    · exact ordered.insert _ _
    · exact ordered.insert _ _
    · exact ordered

theorem ordered_projectPath {out : Object} (ordered : OrderedMap.Ordered out) (record : Value)
    (path : FieldPath) : OrderedMap.Ordered (projectPath record out path) := by
  unfold projectPath
  split
  · exact ordered_insertPath ordered path _
  · exact ordered

/-- Projections of records that differ only under hidden keys do so as well. -/
theorem sameShown_project (same : SameShown hides left right) (fields : List FieldPath) :
    SameShown hides (project left fields) (project right fields) := by
  -- The fold carries order and agreement of the two accumulators.
  have carried : ∀ (out out' : Object), OrderedMap.Ordered out → OrderedMap.Ordered out' →
      OrderedMap.Agree hides out out' →
        OrderedMap.visible hides (fields.foldl (projectPath left) out) =
          OrderedMap.visible hides (fields.foldl (projectPath right) out') := by
    induction fields with
    | nil =>
      intro out out' ordered ordered' agree
      exact OrderedMap.visible_eq_of_agree ordered ordered' agree
    | cons path fields ih =>
      intro out out' ordered ordered' agree
      exact ih _ _ (ordered_projectPath ordered left path)
        (ordered_projectPath ordered' right path) (agree_projectPath same agree path)
  have start := carried [] [] OrderedMap.ordered_nil OrderedMap.ordered_nil fun _ _ => rfl
  exact Or.inr ⟨_, _, rfl, rfl, start⟩

/-- The sort order cannot tell apart records that differ only under hidden keys, if every
sort key starts at a shown field. -/
theorem recordLe_congr (shownKeys : ∀ key ∈ sort, StartsShown hides key.1)
    (left left' : Str × Value) (sameLeft : left.1 = left'.1 ∧ SameShown hides left.2 left'.2)
    (right right' : Str × Value)
    (sameRight : right.1 = right'.1 ∧ SameShown hides right.2 right'.2) :
    recordLe codec sort left right ↔ recordLe codec sort left' right' := by
  unfold recordLe
  rw [compareRecords_congr sameLeft.2 sameRight.2 shownKeys, sameLeft.1, sameRight.1]

end Hidden

end Rs2Runtime.Listing
