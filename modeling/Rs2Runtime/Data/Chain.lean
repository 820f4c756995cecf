import Mathlib

/-!
Contract: chains of which the first one that answers decides.

Owns: when the answer of a chain does not depend on the order of its links.
-/

namespace Rs2Runtime.Data.Chain

universe u v

variable {α : Type u} {β : Type v} {answer : α → Option β} {alike : β → β → Prop}

/-- Every two orders of a chain have the same answer. -/
def OrderFree (answer : α → Option β) (alike : β → β → Prop) (links : List α) : Prop :=
  ∀ first second : List α, first.Perm links → second.Perm links →
    Option.Rel alike (first.findSome? answer) (second.findSome? answer)

/-- Every two links that answer have the same answer. -/
def Agree (answer : α → Option β) (alike : β → β → Prop) (links : List α) : Prop :=
  ∀ link ∈ links, ∀ other ∈ links, ∀ found found',
    answer link = some found → answer other = some found' → alike found found'

/-- A chain can be reordered so that a given link comes first. -/
theorem exists_perm_cons {link : α} {links : List α} (member : link ∈ links) :
    ∃ rest, (link :: rest).Perm links := by
  obtain ⟨front, back, rfl⟩ := List.append_of_mem member
  exact ⟨front ++ back, List.perm_middle.symm⟩

/-- Where those that answer agree, the answer of a chain does not depend on its order. -/
theorem orderFree_of_agree {links : List α} (agree : Agree answer alike links) :
    OrderFree answer alike links := by
  intro first second permuted permuted'
  cases found : first.findSome? answer with
  | none =>
    have silent : second.findSome? answer = none := by
      rw [List.findSome?_eq_none_iff] at found ⊢
      exact fun link member =>
        found link (permuted.mem_iff.mpr (permuted'.mem_iff.mp member))
    rw [silent]
    exact .none
  | some answered =>
    obtain ⟨link, member, answers⟩ := List.exists_of_findSome?_eq_some found
    cases found' : second.findSome? answer with
    | none =>
      rw [List.findSome?_eq_none_iff] at found'
      have silent := found' link (permuted'.mem_iff.mpr (permuted.mem_iff.mp member))
      rw [answers] at silent
      cases silent
    | some answered' =>
      obtain ⟨other, member', answers'⟩ := List.exists_of_findSome?_eq_some found'
      exact .some (agree link (permuted.mem_iff.mp member) other (permuted'.mem_iff.mp member')
        _ _ answers answers')

end Rs2Runtime.Data.Chain
