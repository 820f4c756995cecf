import Mathlib

/-!
Contract: lists cut into pages of one size.

Owns:
- the page of a number;
- that the pages before a number show what stands before its first item;
- the number of pages, behind which every page is empty, and that those pages show everything.
-/

namespace Rs2Runtime.Data.Paging

universe u v

variable {α : Type u} {β : Type v}

/-- The items of one page. -/
def page (items : List α) (size number : Nat) : List α :=
  (items.drop (number * size)).take size

theorem map_page (f : α → β) (items : List α) (size number : Nat) :
    (page items size number).map f = page (items.map f) size number := by
  rw [page, List.map_take, List.map_drop, page]

/-- The pages before a number show the items before its first. -/
theorem flatMap_page (items : List α) (size count : Nat) :
    (List.range count).flatMap (page items size) = items.take (count * size) := by
  induction count with
  | zero => simp
  | succ count ih =>
    rw [List.range_succ, List.flatMap_append, ih, List.flatMap_singleton, page, Nat.succ_mul,
      List.take_add]

theorem page_eq_nil_iff (items : List α) {size : Nat} (positive : 1 ≤ size) (number : Nat) :
    page items size number = [] ↔ items.length ≤ number * size := by
  rw [page, List.take_eq_nil_iff, List.drop_eq_nil_iff]
  omega

/-- The pages, taken until one is empty, show all items in their order. -/
theorem exists_count (items : List α) {size : Nat} (positive : 1 ≤ size) :
    ∃ count, (∀ number, page items size number = [] ↔ count ≤ number) ∧
      (List.range count).flatMap (page items size) = items := by
  -- The least number of pages that hold all items.
  have enough : ∀ number, items.length ≤ number * size ↔
      (items.length + size - 1) / size ≤ number := by
    intro number
    rw [Nat.div_le_iff_le_mul_add_pred positive, Nat.mul_comm]
    omega
  refine ⟨(items.length + size - 1) / size, fun number => ?_, ?_⟩
  · rw [page_eq_nil_iff items positive, enough]
  · rw [flatMap_page, List.take_of_length_le ((enough _).mpr le_rfl)]

end Rs2Runtime.Data.Paging
