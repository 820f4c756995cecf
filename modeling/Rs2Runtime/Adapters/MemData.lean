import Rs2Runtime.Listing

/-!
Contract: the in-memory data store of one tenant.

Owns:
- datasets of keyed records with an optional schema;
- the record, schema and dataset operations, with their error texts;
- what a write leaves unchanged.
-/

namespace Rs2Runtime.Adapters.MemData

open Text Data Json Listing

/-- Keyed records with an optional schema. -/
structure Dataset where
  records : OrderedMap Str Value
  schema : Option Value
  deriving DecidableEq, Repr

/-- The datasets of a tenant. -/
abbrev Store := OrderedMap Str Dataset

def noRecord (dataset key : Str) : RsError :=
  .notFound (("no record '" : Str) ++ key ++ ("' in dataset '" : Str) ++ dataset ++ ("'" : Str))

def noDataset (dataset : Str) : RsError :=
  .notFound (("no dataset '" : Str) ++ dataset ++ ("'" : Str))

/-- The record under a key. -/
def record? (store : Store) (dataset key : Str) : Option Value :=
  (OrderedMap.get? store dataset).bind fun ds => ds.records.get? key

/-- A dataset, empty where it does not exist yet. -/
def entry (store : Store) (dataset : Str) : Dataset :=
  (OrderedMap.get? store dataset).getD ⟨[], none⟩

def get (store : Store) (dataset key : Str) : Except RsError Value :=
  match record? store dataset key with
  | some value => .ok value
  | none => .error (noRecord dataset key)

/-- Store a record; also tells whether the key is new. -/
def put (store : Store) (dataset key : Str) (value : Value) : Bool × Store :=
  let ds := entry store dataset
  ((ds.records.get? key).isNone,
    OrderedMap.insert store dataset { ds with records := ds.records.insert key value })

def delete (store : Store) (dataset key : Str) : Except RsError Store :=
  match OrderedMap.get? store dataset with
  | none => .error (noRecord dataset key)
  | some ds =>
    match ds.records.get? key with
    | none => .error (noRecord dataset key)
    | some _ =>
      .ok (OrderedMap.insert store dataset { ds with records := ds.records.erase key })

def listKeys (store : Store) (dataset : Str) (take skip : Nat) :
    Except RsError (List Str × Nat) :=
  match OrderedMap.get? store dataset with
  | none => .error (noDataset dataset)
  | some ds => .ok (((ds.records.map Prod.fst).drop skip).take take, ds.records.length)

def listDatasets (store : Store) (take skip : Nat) : List Str × Nat :=
  (((store.map Prod.fst).drop skip).take take, store.length)

def getSchema (store : Store) (dataset : Str) : Option Value :=
  (OrderedMap.get? store dataset).bind Dataset.schema

def putSchema (store : Store) (dataset : Str) (schema : Value) : Store :=
  OrderedMap.insert store dataset { entry store dataset with schema := some schema }

def deleteDataset (store : Store) (dataset : Str) : Except RsError Store :=
  match OrderedMap.get? store dataset with
  | none => .error (noDataset dataset)
  | some _ => .ok (OrderedMap.erase store dataset)

/-- One page of projected records, and the number of records. -/
def listRecords (codec : Codec) (store : Store) (dataset : Str) (spec : ListSpec) :
    Except RsError (List (Str × Value) × Nat) :=
  match OrderedMap.get? store dataset with
  | none => .error (noDataset dataset)
  | some ds =>
    let sorted :=
      if spec.sort = [] then ds.records
      else ds.records.insertionSort (recordLe codec spec.sort)
    let page := (sorted.drop spec.skip).take spec.take
    .ok (page.map fun entry => (entry.1, project entry.2 spec.fields), ds.records.length)

/-! ## What writes change -/

theorem record?_put (store : Store) (dataset key : Str) (value : Value) (dataset' key' : Str) :
    record? (put store dataset key value).2 dataset' key' =
      if dataset' = dataset ∧ key' = key then some value else record? store dataset' key' := by
  by_cases sameDataset : dataset' = dataset
  · subst sameDataset
    by_cases sameKey : key' = key
    · subst sameKey
      simp [record?, put]
    · have kept : record? store dataset' key' =
          OrderedMap.get? (entry store dataset').records key' := by
        unfold record? entry
        cases OrderedMap.get? store dataset' <;> simp
      rw [kept]
      simp [record?, put, sameKey]
  · simp [record?, put, sameDataset]

theorem record?_putSchema (store : Store) (dataset : Str) (schema : Value) (dataset' key : Str) :
    record? (putSchema store dataset schema) dataset' key = record? store dataset' key := by
  by_cases same : dataset' = dataset
  · subst same
    unfold record? putSchema entry
    cases OrderedMap.get? store dataset' <;> simp
  · simp [record?, putSchema, same]

end Rs2Runtime.Adapters.MemData
