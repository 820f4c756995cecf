import Mathlib.Data.List.Nodup

/-!
Contract: lists of rows that carry their own keys.

Owns:
- rows with pairwise distinct keys;
- replacing the row of a key in place, or adding one, and what that keeps.
-/

namespace Rs2Runtime.Data.Keyed

universe u v

variable {α : Type u} {κ : Type v} (key : α → κ)

/-- No two rows have one key. -/
def Distinct (rows : List α) : Prop :=
  (rows.map key).Nodup

variable {key}

variable {rows : List α} {row other : α}

/-- The row of a key is determined by it. -/
theorem Distinct.eq_of_key (distinct : Distinct key rows) (member : row ∈ rows)
    (member' : other ∈ rows) (same : key row = key other) : row = other :=
  List.inj_on_of_nodup_map distinct member member' same

variable [DecidableEq κ]

variable (key)

/-- Put a row in the place of the first one with its key, or behind all rows. -/
def upsert (row : α) : List α → List α
  | [] => [row]
  | other :: rows => if key other = key row then row :: rows else other :: upsert row rows

variable {key}

theorem upsert_of_absent (absent : rows.find? (fun other => key other = key row) = none) :
    upsert key row rows = rows ++ [row] := by
  induction rows with
  | nil => rfl
  | cons other rows ih =>
    rw [List.find?_cons] at absent
    by_cases same : key other = key row
    · simp [same] at absent
    · simp only [same, decide_false] at absent
      rw [upsert, if_neg same, ih absent, List.cons_append]

theorem upsert_of_present (present : rows.find? (fun other => key other = key row) = some other) :
    upsert key row rows = rows.set (rows.findIdx fun other => key other = key row) row := by
  induction rows with
  | nil => cases present
  | cons first rows ih =>
    rw [List.findIdx_cons]
    by_cases same : key first = key row
    · rw [upsert, if_pos same, decide_eq_true same]
      rfl
    · rw [List.find?_cons, decide_eq_false same] at present
      rw [upsert, if_neg same, ih present, decide_eq_false same]
      rfl

/-- The rows after putting one: that row, and those with other keys. -/
theorem mem_of_mem_upsert (member : other ∈ upsert key row rows) : other = row ∨ other ∈ rows := by
  induction rows with
  | nil => exact .inl (List.mem_singleton.mp member)
  | cons first rows ih =>
    unfold upsert at member
    split at member
    · rcases List.mem_cons.mp member with here | later
      · exact .inl here
      · exact .inr (List.mem_cons_of_mem first later)
    · rcases List.mem_cons.mp member with here | later
      · exact .inr (here ▸ List.mem_cons_self)
      · rcases ih later with placed | kept
        · exact .inl placed
        · exact .inr (List.mem_cons_of_mem first kept)

end Rs2Runtime.Data.Keyed
