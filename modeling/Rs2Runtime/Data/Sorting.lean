import Mathlib

/-!
Contract: sorts that do not depend on the order they start from.

Owns:
- sorting by keys that are all different;
- sorting by a relation that is an order on the entries at hand, though not elsewhere;
- entries that a list has in one order and not in the other.
-/

namespace Rs2Runtime.Data.Sorting

open scoped List

universe u v

variable {α : Type u}

/-- Of two entries of a list, one stands before the other. -/
theorem pair_sublist_of_mem {entries : List α} {left right : α} (isLeft : left ∈ entries)
    (isRight : right ∈ entries) (differ : left ≠ right) :
    [left, right] <+ entries ∨ [right, left] <+ entries := by
  obtain ⟨before, after, rfl⟩ := List.append_of_mem isLeft
  rcases List.mem_append.mp isRight with first | second
  · right
    exact (List.singleton_sublist.mpr first).append
      (List.singleton_sublist.mpr List.mem_cons_self)
  · left
    have later := (List.mem_cons.mp second).resolve_left (Ne.symm differ)
    exact List.Sublist.trans (List.Sublist.cons_cons left (List.singleton_sublist.mpr later))
      (List.sublist_append_right before _)

/-- A list without duplicates has two entries in one order only. -/
theorem not_pair_sublist_swap {entries : List α} {left right : α} (distinct : entries.Nodup)
    (first : [left, right] <+ entries) : ¬ [right, left] <+ entries := by
  induction entries with
  | nil => cases first
  | cons entry rest ih =>
    obtain ⟨absent, distinct⟩ := List.nodup_cons.mp distinct
    intro second
    cases first with
    | cons _ first =>
      cases second with
      | cons _ second => exact ih distinct first second
      | cons_cons _ second => exact absent (first.subset (by simp))
    | cons_cons _ first =>
      cases second with
      | cons _ second => exact absent (second.subset (by simp))
      | cons_cons _ second => exact absent (first.subset List.mem_cons_self)

section Members

variable {r : α → α → Prop} [DecidableRel r] {entries : List α}

/-- A relation that is total and transitive on the entries sorts them. -/
theorem pairwise_insertionSort_of_mem
    (total : ∀ left ∈ entries, ∀ right ∈ entries, r left right ∨ r right left)
    (transitive : ∀ left ∈ entries, ∀ middle ∈ entries, ∀ right ∈ entries,
      r left middle → r middle right → r left right) :
    (entries.insertionSort r).Pairwise r := by
  -- The relation is an order on the entries as a type of their own.
  let inside (left right : { entry // entry ∈ entries }) : Prop := r left.1 right.1
  have : DecidableRel inside := fun left right => inferInstanceAs (Decidable (r left.1 right.1))
  have : Std.Total inside := ⟨fun left right => total _ left.2 _ right.2⟩
  have : IsTrans _ inside :=
    ⟨fun left middle right => transitive _ left.2 _ middle.2 _ right.2⟩
  have sorted := List.pairwise_insertionSort inside entries.attach
  have mapped := List.map_insertionSort inside r Subtype.val entries.attach fun _ _ _ _ => Iff.rfl
  rw [List.attach_map_subtype_val] at mapped
  rw [← mapped]
  exact List.pairwise_map.mpr sorted

/-- An order on the entries sorts every permutation of them alike. -/
theorem insertionSort_eq_of_perm {others : List α} (same : entries.Perm others)
    (total : ∀ left ∈ entries, ∀ right ∈ entries, r left right ∨ r right left)
    (transitive : ∀ left ∈ entries, ∀ middle ∈ entries, ∀ right ∈ entries,
      r left middle → r middle right → r left right)
    (antisymmetric : ∀ left ∈ entries, ∀ right ∈ entries,
      r left right → r right left → left = right) :
    entries.insertionSort r = others.insertionSort r := by
  have sorted := pairwise_insertionSort_of_mem total transitive
  have sortedOthers : (others.insertionSort r).Pairwise r := by
    refine pairwise_insertionSort_of_mem ?_ ?_
    · intro left first right second
      exact total left (same.mem_iff.mpr first) right (same.mem_iff.mpr second)
    · intro left first middle second right third
      exact transitive left (same.mem_iff.mpr first) middle (same.mem_iff.mpr second) right
        (same.mem_iff.mpr third)
  refine List.Perm.eq_of_pairwise ?_ sorted sortedOthers ?_
  · intro left right first second
    refine antisymmetric left ((List.perm_insertionSort r _).mem_iff.mp first) right ?_
    exact same.mem_iff.mpr ((List.perm_insertionSort r _).mem_iff.mp second)
  · exact (List.perm_insertionSort r _).trans
      (same.trans (List.perm_insertionSort r _).symm)

omit [DecidableRel r] in
/-- A relation under which some arrangement of the entries is sorted is transitive on them. -/
theorem transitive_of_pairwise (reflexive : ∀ entry ∈ entries, r entry entry)
    (antisymmetric : ∀ left ∈ entries, ∀ right ∈ entries,
      r left right → r right left → left = right)
    (sorted : entries.Pairwise r) :
    ∀ left ∈ entries, ∀ middle ∈ entries, ∀ right ∈ entries,
      r left middle → r middle right → r left right := by
  induction entries with
  | nil => exact fun _ member => nomatch member
  | cons first rest ih =>
    obtain ⟨below, sorted⟩ := List.pairwise_cons.mp sorted
    have lowest : ∀ entry ∈ first :: rest, r first entry := by
      intro entry member
      rcases List.mem_cons.mp member with rfl | later
      · exact reflexive entry List.mem_cons_self
      · exact below entry later
    have isFirst : ∀ entry ∈ first :: rest, r entry first → entry = first := by
      intro entry member under
      exact antisymmetric entry member first List.mem_cons_self under (lowest entry member)
    have later := ih (fun entry member => reflexive entry (List.mem_cons_of_mem _ member))
      (fun left leftMember right rightMember =>
        antisymmetric left (List.mem_cons_of_mem _ leftMember) right
          (List.mem_cons_of_mem _ rightMember)) sorted
    intro left leftMember middle middleMember right rightMember one two
    rcases List.mem_cons.mp leftMember with rfl | leftLater
    · exact lowest right rightMember
    rcases List.mem_cons.mp middleMember with rfl | middleLater
    · rw [isFirst left leftMember one]
      exact lowest right rightMember
    rcases List.mem_cons.mp rightMember with rfl | rightLater
    · rw [isFirst middle middleMember two] at one
      exact one
    · exact later left leftLater middle middleLater right rightLater one two

end Members

end Rs2Runtime.Data.Sorting
