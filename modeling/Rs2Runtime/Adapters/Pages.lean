import Rs2Runtime.Adapters.MemData
import Rs2Runtime.Data.Paging
import Rs2Runtime.Data.Sorting

/-!
Contract: the pages of a projected listing.

Owns:
- the listing over keys and single reads that a store without its own falls back to;
- that the in-memory store's listing is that of the fallback;
- that pages tile the sorted dataset, for every dataset the sort keys order.
-/

namespace Rs2Runtime.Adapters.MemData

open Text Data Data.Outcome Json Listing

/-! ## The fallback -/

/-- A projected listing over a listing of keys, so many or all of them, and single reads. -/
def listRecordsFallback (codec : Codec)
    (listKeys : (take : Option Nat) → (skip : Nat) → Except RsError (List Str × Nat))
    (get : Str → Except RsError Value) (spec : ListSpec) :
    Except RsError (List (Str × Value) × Nat) :=
  if spec.sort = [] then do
    let (keys, total) ← listKeys (some spec.take) spec.skip
    let page ← keys.mapM fun key => (get key).map fun record => (key, project record spec.fields)
    return (page, total)
  else do
    let (keys, _) ← listKeys none 0
    let records ← keys.mapM fun key => (get key).map fun record => (key, record)
    return sortPageProject codec records spec

/-- The fallback over the in-memory store's own operations. -/
def listByKeys (codec : Codec) (store : Store) (dataset : Str) (spec : ListSpec) :
    Except RsError (List (Str × Value) × Nat) :=
  listRecordsFallback codec
    (fun take skip => listKeys store dataset (take.getD (entry store dataset).records.length) skip)
    (get store dataset) spec

variable {codec : Codec} {store : Store} {dataset : Str} {ds : Dataset}

/-- Reading the records of listed keys gives those records. -/
theorem mapM_get {α : Type} (found : OrderedMap.get? store dataset = some ds)
    (ordered : OrderedMap.Ordered ds.records) (shape : Str → Value → α)
    {entries : List (Str × Value)} (inside : ∀ record ∈ entries, record ∈ ds.records) :
    ((entries.map Prod.fst).mapM fun key => (get store dataset key).map (shape key)) =
      .ok (entries.map fun record => shape record.1 record.2) := by
  induction entries with
  | nil => rfl
  | cons record entries ih =>
    have read : get store dataset record.1 = .ok record.2 := by
      have isRecord := OrderedMap.get?_of_mem ordered.nodup (inside record List.mem_cons_self)
      rw [get, record?, found, Option.bind_some, isRecord]
    rw [List.map_cons, List.mapM_cons, read,
      ih fun other member => inside other (List.mem_cons_of_mem _ member)]
    rfl

/-- The in-memory store lists what the fallback over its keys lists. -/
theorem listRecords_eq_listByKeys (codec : Codec) {store : Store} {dataset : Str}
    (ordered : ∀ ds, OrderedMap.get? store dataset = some ds → OrderedMap.Ordered ds.records)
    (spec : ListSpec) :
    listRecords codec store dataset spec = listByKeys codec store dataset spec := by
  unfold listRecords listByKeys listRecordsFallback listKeys entry
  cases found : OrderedMap.get? store dataset with
  | none => exact (ite_self _).symm
  | some ds =>
    dsimp only
    by_cases unsorted : spec.sort = []
    · have reads := @mapM_get store dataset ds _ found (ordered ds found)
        (fun key record => (key, project record spec.fields))
        ((ds.records.drop spec.skip).take spec.take)
        fun record member => List.mem_of_mem_drop (List.mem_of_mem_take member)
      rw [List.map_take, List.map_drop] at reads
      rw [if_pos unsorted, if_pos unsorted]
      show _ = Except.bind (List.mapM _ _) _
      rw [Option.getD_some, reads]
      rfl
    · have reads := mapM_get found (ordered ds found) Prod.mk fun record member => member
      have all : (ds.records.map Prod.fst).take ds.records.length = ds.records.map Prod.fst :=
        List.take_of_length_le (by rw [List.length_map])
      rw [if_neg unsorted, if_neg unsorted]
      show _ = Except.bind
        (List.mapM (fun key => (get store dataset key).map (Prod.mk key)) _) _
      rw [Option.getD_none, Option.getD_some, List.drop_zero, all, reads, List.map_id']
      rfl

/-! ## Pages -/

/-- The records of one page. -/
def page (codec : Codec) (store : Store) (dataset : Str) (spec : ListSpec) (number : Nat) :
    List (Str × Value) :=
  match listRecords codec store dataset { spec with skip := number * spec.take } with
  | .ok (records, _) => records
  | .error _ => []

/-- The records in the order of a listing. -/
def listed (codec : Codec) (ds : Dataset) (sort : List (FieldPath × Dir)) : List (Str × Value) :=
  if sort = [] then ds.records else ds.records.insertionSort (recordLe codec sort)

/-- The pages, taken until one is empty, show every record once in the order of the sort keys and
record keys, each with the number of records; and the store's listing is that of the fallback. -/
structure PagesTile (codec : Codec) (store : Store) (dataset : Str) (ds : Dataset)
    (spec : ListSpec) : Prop where
  tile : ∃ sorted : List (Str × Value), sorted.Perm ds.records ∧
    sorted.Pairwise (recordLe codec spec.sort) ∧ ∃ count, (∀ number, page codec store dataset spec number = [] ↔ count ≤ number) ∧
      (List.range count).flatMap (page codec store dataset spec) =
        sorted.map fun record => (record.1, project record.2 spec.fields)
  total : ∀ skip, ∃ records,
    listRecords codec store dataset { spec with skip := skip } = .ok (records, ds.records.length)
  fallback : ∀ skip, listRecords codec store dataset { spec with skip := skip } =
    listByKeys codec store dataset { spec with skip := skip }

/-- The sort keys, with the record key as the last, order the records of a dataset. -/
def OrdersRecords (codec : Codec) (ds : Dataset) (sort : List (FieldPath × Dir)) : Prop :=
  ∀ left ∈ ds.records, ∀ middle ∈ ds.records, ∀ right ∈ ds.records,
    recordLe codec sort left middle → recordLe codec sort middle right →
      recordLe codec sort left right

theorem page_eq (found : OrderedMap.get? store dataset = some ds) (spec : ListSpec) :
    page codec store dataset spec = Paging.page ((listed codec ds spec.sort).map
      fun record => (record.1, project record.2 spec.fields)) spec.take := by
  funext number
  rw [← Paging.map_page]
  unfold page listRecords
  rw [found]
  rfl

theorem perm_listed (codec : Codec) (ds : Dataset) (sort : List (FieldPath × Dir)) :
    (listed codec ds sort).Perm ds.records := by
  unfold listed
  split
  · exact List.Perm.refl _
  · exact List.perm_insertionSort _ _

theorem pairwise_listed (ordered : OrderedMap.Ordered ds.records) {sort : List (FieldPath × Dir)}
    (orders : OrdersRecords codec ds sort) :
    (listed codec ds sort).Pairwise (recordLe codec sort) := by
  unfold listed
  split
  next unsorted =>
    subst unsorted
    refine (List.pairwise_map.mp ordered).imp fun {left right} below => ?_
    show compareStr left.1 right.1 ≠ .gt
    rw [compareStr, compareOfLessAndEq, if_pos below]
    nofun
  next =>
    exact Sorting.pairwise_insertionSort_of_mem
      (fun left _ right _ => recordLe_total codec sort left right) orders

theorem orders_of_sorted (ordered : OrderedMap.Ordered ds.records) {sort : List (FieldPath × Dir)}
    {sorted : List (Str × Value)} (same : sorted.Perm ds.records)
    (isSorted : sorted.Pairwise (recordLe codec sort)) : OrdersRecords codec ds sort := by
  have transitive := Sorting.transitive_of_pairwise
    (fun record _ => (recordLe_total codec sort record record).elim id id)
    (fun left leftMember right rightMember below above =>
      List.inj_on_of_nodup_map ordered.nodup (same.mem_iff.mp leftMember)
        (same.mem_iff.mp rightMember) (key_eq_of_recordLe below above)) isSorted
  intro left leftMember middle middleMember right rightMember
  exact transitive left (same.mem_iff.mpr leftMember) middle (same.mem_iff.mpr middleMember) right
    (same.mem_iff.mpr rightMember)

/-- For every dataset, sort keys and page size of at least one, the pages tile the sorted dataset
exactly if the sort keys order its records. -/
theorem pages_tile_iff (codec : Codec) {store : Store} {dataset : Str} {ds : Dataset}
    (found : OrderedMap.get? store dataset = some ds) (ordered : OrderedMap.Ordered ds.records)
    {spec : ListSpec} (positive : 1 ≤ spec.take) :
    PagesTile codec store dataset ds spec ↔ OrdersRecords codec ds spec.sort := by
  constructor
  · intro tiles
    obtain ⟨sorted, same, isSorted, _⟩ := tiles.tile
    exact orders_of_sorted ordered same isSorted
  · intro orders
    obtain ⟨count, empty, shown⟩ := Paging.exists_count ((listed codec ds spec.sort).map
      fun record => (record.1, project record.2 spec.fields)) positive
    rw [← page_eq found] at empty shown
    refine ⟨⟨_, perm_listed codec ds spec.sort, pairwise_listed ordered orders, count, empty,
      shown⟩, fun skip => ?_, fun skip => ?_⟩
    · unfold listRecords
      rw [found]
      exact ⟨_, rfl⟩
    · refine listRecords_eq_listByKeys codec (fun other isOther => ?_) _
      rw [found] at isOther
      cases isOther
      exact ordered

/-- Records by the number each holds under `n`. -/
def numbered (numbers : List (Str × Number)) : Dataset :=
  ⟨numbers.map fun entry => (entry.1, .obj [("n", .num entry.2)]), none⟩

def byNumber : ListSpec :=
  ⟨[["n"]], [(["n"], .asc)], 1, 0⟩

theorem pages_of_two_numbers :
    PagesTile Tagged.codec [("d", numbered [("a", .int 2), ("b", .int 1)])] "d"
        (numbered [("a", .int 2), ("b", .int 1)]) byNumber ↔
      OrdersRecords Tagged.codec (numbered [("a", .int 2), ("b", .int 1)]) byNumber.sort :=
  pages_tile_iff Tagged.codec rfl (by unfold OrderedMap.Ordered; decide +kernel) le_rfl

/-- 2 ^ 53 + 1, 2 ^ 53 as a fraction and 2 ^ 53: the first two and the last two are equal as
doubles, and the first and the last are not as integers. -/
def roundedNumbers : Dataset :=
  numbered [("a", .int 9007199254740993), ("b", .float 90071992547409920 (-1)),
    ("c", .int 9007199254740992)]

theorem rounded_numbers_have_no_order :
    ¬ PagesTile Tagged.codec [("d", roundedNumbers)] "d" roundedNumbers byNumber := by
  intro tiles
  obtain ⟨sorted, same, isSorted, _⟩ := tiles.tile
  have orders := orders_of_sorted (by unfold OrderedMap.Ordered; decide +kernel) same isSorted
  exact absurd (orders _ (.head _) _ (.tail _ (.head _)) _ (.tail _ (.tail _ (.head _)))
    (by decide +kernel) (by decide +kernel)) (by decide +kernel)

end Rs2Runtime.Adapters.MemData
