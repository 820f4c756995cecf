import Rs2Runtime.Data.OrderedMap

/-!
Contract: finite tables with one row per key, in no particular order.

Owns:
- tables as association lists with distinct keys;
- lookup, replacement, removal and selection of rows;
- the lookup equation of every operation.
-/

namespace Rs2Runtime.Data

universe u v

/-- A table with one row per key. -/
structure Table (κ : Type u) (ν : Type v) where
  rows : List (κ × ν)
  distinct : (rows.map Prod.fst).Nodup
  deriving DecidableEq

namespace Table

variable {κ : Type u} {ν : Type v}

def empty : Table κ ν :=
  ⟨[], List.nodup_nil⟩

def size (table : Table κ ν) : Nat :=
  table.rows.length

/-- Keep the rows that a test selects. -/
def retain (table : Table κ ν) (keep : κ → ν → Bool) : Table κ ν where
  rows := table.rows.filter fun row => keep row.1 row.2
  distinct := table.distinct.sublist (List.filter_sublist.map _)

variable [DecidableEq κ]

/-- The row of a key. -/
def find (table : Table κ ν) (key : κ) : Option ν :=
  OrderedMap.get? table.rows key

/-- Remove the row of a key. -/
def erase (table : Table κ ν) (key : κ) : Table κ ν where
  rows := OrderedMap.erase table.rows key
  distinct := table.distinct.sublist (List.filter_sublist.map _)

/-- Put a row under a key, in place of the one before. -/
def put (table : Table κ ν) (key : κ) (row : ν) : Table κ ν where
  rows := (key, row) :: OrderedMap.erase table.rows key
  distinct := by
    refine List.nodup_cons.mpr ⟨?_, (table.erase key).distinct⟩
    exact OrderedMap.get?_eq_none.mp (OrderedMap.get?_erase_self table.rows key)

/-- Change the row of a key, if there is one. -/
def update (table : Table κ ν) (key : κ) (change : ν → ν) : Table κ ν :=
  match table.find key with
  | some row => table.put key (change row)
  | none => table

/-- Remove the rows of all given keys. -/
def eraseAll (table : Table κ ν) (keys : List κ) : Table κ ν :=
  table.retain fun key _ => key ∉ keys

/-- How many rows a test selects. -/
def count (table : Table κ ν) (selects : ν → Bool) : Nat :=
  table.rows.countP fun row => selects row.2

/-! ## Lookup equations -/

variable {table : Table κ ν} {key : κ} {row : ν}

theorem find_of_mem (member : (key, row) ∈ table.rows) :
    table.find key = some row :=
  OrderedMap.get?_of_mem table.distinct member

theorem mem_of_find (found : table.find key = some row) :
    (key, row) ∈ table.rows :=
  OrderedMap.mem_of_get? found

theorem find_eq_some_iff :
    table.find key = some row ↔ (key, row) ∈ table.rows :=
  ⟨mem_of_find, find_of_mem⟩

@[simp]
theorem find_erase (table : Table κ ν) (erased key : κ) :
    (table.erase erased).find key = if key = erased then none else table.find key := by
  by_cases same : key = erased
  · rw [if_pos same, same]
    exact OrderedMap.get?_erase_self table.rows erased
  · rw [if_neg same]
    exact OrderedMap.get?_erase_of_ne table.rows same

@[simp]
theorem find_put (table : Table κ ν) (changed key : κ) (row : ν) :
    (table.put changed row).find key = if key = changed then some row else table.find key := by
  rw [find, put, OrderedMap.get?_cons]
  by_cases same : key = changed
  · rw [if_pos same, if_pos same.symm]
  · rw [if_neg same, if_neg (Ne.symm same)]
    exact OrderedMap.get?_erase_of_ne table.rows same

@[simp]
theorem find_retain (table : Table κ ν) (keep : κ → ν → Bool) (key : κ) :
    (table.retain keep).find key = (table.find key).filter (keep key) := by
  refine Option.ext fun row => ?_
  rw [find_eq_some_iff, Option.filter_eq_some_iff, find_eq_some_iff]
  exact List.mem_filter

@[simp]
theorem find_update (table : Table κ ν) (changed key : κ) (change : ν → ν) :
    (table.update changed change).find key =
      if key = changed then (table.find key).map change else table.find key := by
  unfold update
  split
  next row found =>
    rw [find_put]
    by_cases same : key = changed
    · rw [if_pos same, if_pos same, same, found, Option.map_some]
    · rw [if_neg same, if_neg same]
  next absent =>
    by_cases same : key = changed
    · rw [if_pos same, same, absent, Option.map_none]
    · rw [if_neg same]

/-! ## Counting rows -/

/-- Removing a key leaves rows of other keys. -/
theorem erase_of_not_mem {rows : List (κ × ν)} (absent : key ∉ rows.map Prod.fst) :
    OrderedMap.erase rows key = rows := by
  refine List.filter_eq_self.mpr fun row member => ?_
  rw [decide_eq_true_eq]
  rintro rfl
  exact absent (List.mem_map_of_mem member)

theorem count_put (table : Table κ ν) (key : κ) (row : ν) (selects : ν → Bool) :
    (table.put key row).count selects =
      (table.erase key).count selects + if selects row then 1 else 0 :=
  List.countP_cons

theorem count_erase_le (table : Table κ ν) (key : κ) (selects : ν → Bool) :
    (table.erase key).count selects ≤ table.count selects :=
  List.Sublist.countP_le List.filter_sublist

/-- The row of a key is counted once. -/
theorem count_eq_of_find (found : table.find key = some row) (selects : ν → Bool) :
    table.count selects = (table.erase key).count selects + if selects row then 1 else 0 := by
  obtain ⟨before, after, split⟩ := List.append_of_mem (mem_of_find found)
  have distinct := table.distinct
  rw [split, List.map_append, List.map_cons, List.nodup_append, List.nodup_cons] at distinct
  have absentBefore : key ∉ before.map Prod.fst := fun member =>
    distinct.2.2 key member key List.mem_cons_self rfl
  have erased : (table.erase key).rows = before ++ after := by
    change OrderedMap.erase table.rows key = _
    rw [split, OrderedMap.erase, List.filter_append, List.filter_cons_of_neg (by simp)]
    exact congrArg₂ _ (erase_of_not_mem absentBefore) (erase_of_not_mem distinct.2.1.1)
  rw [count, count, erased, split, List.countP_append, List.countP_append, List.countP_cons]
  exact (Nat.add_assoc _ _ _).symm

end Table

end Rs2Runtime.Data
