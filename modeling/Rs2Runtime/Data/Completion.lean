import Mathlib

/-!
Contract: outcomes of concurrent tasks in the order in which they complete.

Owns: outcomes arranged in an order of completion.
-/

namespace Rs2Runtime.Data.Completion

universe u v

variable {α : Type u}

/-- Outcomes in an order of completion. -/
def arrange (order : List Nat) (outcomes : List α) : List α :=
  order.filterMap fun task => outcomes[task]?

theorem arrange_range (outcomes : List α) :
    arrange (List.range outcomes.length) outcomes = outcomes := by
  induction outcomes with
  | nil => rfl
  | cons outcome outcomes ih =>
    rw [arrange, List.length_cons, List.range_succ_eq_map, List.filterMap_cons,
      List.filterMap_map]
    simp only [List.getElem?_cons_zero]
    exact congrArg _ ih

theorem arrange_perm {order : List Nat} {outcomes : List α}
    (perm : order.Perm (List.range outcomes.length)) : (arrange order outcomes).Perm outcomes := by
  have arranged := perm.filterMap fun task => outcomes[task]?
  rwa [show (List.range outcomes.length).filterMap (fun task => outcomes[task]?) = outcomes from
    arrange_range outcomes] at arranged

theorem map_arrange {β : Type v} (f : α → β) (order : List Nat) (outcomes : List α) :
    (arrange order outcomes).map f = arrange order (outcomes.map f) := by
  rw [arrange, arrange, List.map_filterMap]
  refine List.filterMap_congr fun task _ => ?_
  rw [List.getElem?_map]

end Rs2Runtime.Data.Completion
