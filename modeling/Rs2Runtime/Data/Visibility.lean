import Rs2Runtime.Data.OrderedMap

/-!
Contract: two runs over maps that differ only under hidden keys.

Owns:
- the visible part of a map, and agreement of two maps outside the hidden keys;
- that ordered maps with equal lookups are equal;
- agreement under insertion;
- lookup and sorting of related lists.
-/

namespace Rs2Runtime.Data

universe u v w

namespace OrderedMap

variable {κ : Type u} {ν : Type v}

/-! ## Extensionality of ordered maps -/

section Order

variable [LT κ]

theorem Ordered.tail {entry : κ × ν} {rest : OrderedMap κ ν} (ordered : Ordered (entry :: rest)) :
    Ordered rest :=
  (List.pairwise_cons.mp ordered).2

variable [DecidableEq κ]

/-- A key below the first key of an ordered map, or equal to it, is not in its tail. -/
theorem Ordered.get?_tail_eq_none {key first : κ} {value : ν} {rest : OrderedMap κ ν}
    (ordered : Ordered ((first, value) :: rest)) (notAbove : ¬ first < key) :
    rest.get? key = none := by
  rw [get?_eq_none]
  intro member
  exact notAbove ((List.pairwise_cons.mp ordered).1 key member)

variable [IsStrictTotalOrder κ (· < ·)]

/-- The first key of an ordered map is not above a key of another one with the same
lookups. -/
theorem Ordered.not_lt_head {leftKey rightKey : κ} {leftValue rightValue : ν}
    {left right : OrderedMap κ ν} (orderedRight : Ordered ((rightKey, rightValue) :: right))
    (same : ∀ key, get? ((leftKey, leftValue) :: left) key =
      get? ((rightKey, rightValue) :: right) key) :
    ¬ leftKey < rightKey := by
  intro below
  have found := same leftKey
  have differs : rightKey ≠ leftKey := fun eq => irrefl leftKey (eq ▸ below)
  have notAbove : ¬ rightKey < leftKey := fun above => asymm below above
  rw [get?_cons, if_pos rfl, get?_cons, if_neg differs,
    orderedRight.get?_tail_eq_none notAbove] at found
  cases found

theorem Ordered.ext {left right : OrderedMap κ ν} (orderedLeft : Ordered left)
    (orderedRight : Ordered right) (same : ∀ key, left.get? key = right.get? key) :
    left = right := by
  induction left generalizing right with
  | nil =>
    cases right with
    | nil => rfl
    | cons entry rest =>
      have found := same entry.1
      rw [get?_cons, if_pos rfl] at found
      cases found
  | cons entry rest ih =>
    obtain ⟨leftKey, leftValue⟩ := entry
    cases right with
    | nil =>
      have found := same leftKey
      rw [get?_cons, if_pos rfl] at found
      cases found
    | cons other others =>
      obtain ⟨rightKey, rightValue⟩ := other
      have notBelow := orderedRight.not_lt_head same
      have notAbove := orderedLeft.not_lt_head fun key => (same key).symm
      obtain rfl : leftKey = rightKey := by
        rcases trichotomous_of (· < ·) leftKey rightKey with below | eq | above
        · exact absurd below notBelow
        · exact eq
        · exact absurd above notAbove
      have values := same leftKey
      rw [get?_cons, if_pos rfl, get?_cons, if_pos rfl, Option.some.injEq] at values
      have rests : ∀ key, get? rest key = get? others key := by
        intro key
        by_cases first : leftKey = key
        · subst first
          rw [orderedLeft.get?_tail_eq_none notBelow,
            orderedRight.get?_tail_eq_none notBelow]
        · have found := same key
          rwa [get?_cons, if_neg first, get?_cons, if_neg first] at found
      rw [values, ih orderedLeft.tail orderedRight.tail rests]

end Order

/-! ## The visible part -/

variable [DecidableEq κ]

/-- The entries under keys that are not hidden. -/
def visible (hides : κ → Bool) (entries : OrderedMap κ ν) : OrderedMap κ ν :=
  entries.filter fun entry => !hides entry.1

/-- Two maps have the same value under every key that is not hidden. -/
def Agree (hides : κ → Bool) (left right : OrderedMap κ ν) : Prop :=
  ∀ key, hides key = false → left.get? key = right.get? key

variable {hides : κ → Bool} {left right : OrderedMap κ ν}

theorem Agree.symm (agree : Agree hides left right) : Agree hides right left :=
  fun key shownKey => (agree key shownKey).symm

theorem Agree.trans {third : OrderedMap κ ν} (first : Agree hides left right)
    (second : Agree hides right third) : Agree hides left third :=
  fun key shownKey => (first key shownKey).trans (second key shownKey)

theorem get?_visible (hides : κ → Bool) (entries : OrderedMap κ ν) (key : κ) :
    (visible hides entries).get? key = if hides key then none else entries.get? key := by
  induction entries with
  | nil => simp [visible]
  | cons entry rest ih =>
    obtain ⟨other, value⟩ := entry
    unfold visible at ih ⊢
    by_cases hidden : hides other = true
    · rw [List.filter_cons_of_neg (by simp [hidden]), ih, get?_cons]
      by_cases same : other = key
      · simp [← same, hidden]
      · rw [if_neg same]
    · rw [List.filter_cons_of_pos (by simp [hidden]), get?_cons, get?_cons,
        ih]
      by_cases same : other = key
      · simp [← same, hidden]
      · simp [same]

theorem agree_of_visible_eq (same : visible hides left = visible hides right) :
    Agree hides left right := by
  intro key shownKey
  have found := get?_visible hides left key
  rw [same, get?_visible] at found
  simpa [shownKey] using found.symm

theorem visible_eq_of_agree [LT κ] [IsStrictTotalOrder κ (· < ·)] (orderedLeft : Ordered left)
    (orderedRight : Ordered right) (agree : Agree hides left right) :
    visible hides left = visible hides right := by
  have shrink : ∀ {entries : OrderedMap κ ν}, Ordered entries →
      Ordered (visible hides entries) := fun ordered =>
    List.Pairwise.sublist (List.Sublist.map Prod.fst List.filter_sublist) ordered
  refine (shrink orderedLeft).ext (shrink orderedRight) fun key => ?_
  rw [get?_visible, get?_visible]
  split
  next => rfl
  next shownKey => exact agree key (by simpa using shownKey)

variable [LT κ] [DecidableLT κ]

theorem Agree.insert (agree : Agree hides left right) (key : κ) (value : ν) :
    Agree hides (left.insert key value) (right.insert key value) := by
  intro other shownOther
  rw [get?_insert, get?_insert, agree other shownOther]

/-- What is stored under a hidden key does not matter. -/
theorem agree_insert_of_hidden (entries : OrderedMap κ ν) {key : κ} (hidden : hides key = true)
    (value : ν) : Agree hides (entries.insert key value) entries := by
  intro other shownOther
  have differs : other ≠ key := by
    rintro rfl
    simp [hidden] at shownOther
  rw [get?_insert_of_ne _ _ differs]

end OrderedMap

/-! ## Related lists -/

section Related

variable {α : Type u} {β : Type v} {related : α → β → Prop}

/-- Insertion of related elements into related lists, under orders that cannot tell related
elements apart. -/
theorem forall₂_orderedInsert {leftLe : α → α → Prop} {rightLe : β → β → Prop}
    [DecidableRel leftLe] [DecidableRel rightLe]
    (sameOrder : ∀ a b, related a b → ∀ a' b', related a' b' → (leftLe a a' ↔ rightLe b b'))
    {a : α} {b : β} (heads : related a b) {left : List α} {right : List β}
    (tails : List.Forall₂ related left right) :
    List.Forall₂ related (left.orderedInsert leftLe a) (right.orderedInsert rightLe b) := by
  induction tails with
  | nil => exact .cons heads .nil
  | cons first rest ih =>
    rename_i a' b' left' right'
    rw [List.orderedInsert_cons, List.orderedInsert_cons]
    by_cases before : leftLe a a'
    · rw [if_pos before, if_pos ((sameOrder a b heads a' b' first).mp before)]
      exact .cons heads (.cons first rest)
    · rw [if_neg before, if_neg (mt (sameOrder a b heads a' b' first).mpr before)]
      exact .cons first ih

theorem forall₂_insertionSort {leftLe : α → α → Prop} {rightLe : β → β → Prop}
    [DecidableRel leftLe] [DecidableRel rightLe]
    (sameOrder : ∀ a b, related a b → ∀ a' b', related a' b' → (leftLe a a' ↔ rightLe b b'))
    {left : List α} {right : List β} (all : List.Forall₂ related left right) :
    List.Forall₂ related (left.insertionSort leftLe) (right.insertionSort rightLe) := by
  induction all with
  | nil => exact .nil
  | cons first rest ih =>
    rw [List.insertionSort_cons, List.insertionSort_cons]
    exact forall₂_orderedInsert sameOrder first ih

/-- Maps with the same keys and related values. -/
def RelatedMaps {κ : Type w} (related : α → β → Prop) (left : OrderedMap κ α)
    (right : OrderedMap κ β) : Prop :=
  List.Forall₂ (fun a b => a.1 = b.1 ∧ related a.2 b.2) left right

variable {κ : Type w} {left : OrderedMap κ α} {right : OrderedMap κ β}

theorem RelatedMaps.keys_eq (same : RelatedMaps related left right) :
    left.map Prod.fst = right.map Prod.fst := by
  unfold RelatedMaps at same
  induction same with
  | nil => rfl
  | cons first _ ih =>
    rw [List.map_cons, List.map_cons, first.1, ih]

/-- A key finds related values in both maps, or nothing in either. -/
theorem RelatedMaps.get? [DecidableEq κ] (same : RelatedMaps related left right) (key : κ) :
    (left.get? key = none ∧ right.get? key = none) ∨
      ∃ a b, left.get? key = some a ∧ right.get? key = some b ∧ related a b := by
  unfold RelatedMaps at same
  induction same with
  | nil => exact Or.inl ⟨rfl, rfl⟩
  | cons first rest ih =>
    rename_i a b left' right'
    obtain ⟨leftKey, leftValue⟩ := a
    obtain ⟨rightKey, rightValue⟩ := b
    obtain rfl : leftKey = rightKey := first.1
    rw [OrderedMap.get?_cons, OrderedMap.get?_cons]
    by_cases here : leftKey = key
    · rw [if_pos here, if_pos here]
      exact Or.inr ⟨leftValue, rightValue, rfl, rfl, first.2⟩
    · rw [if_neg here, if_neg here]
      exact ih

end Related

end Rs2Runtime.Data
