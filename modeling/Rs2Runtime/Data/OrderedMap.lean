import Mathlib

/-!
Contract: finite maps as association lists kept in key order.

Owns:
- lookup, ordered insertion, erasure and bulk extension;
- insertion that leaves keys where they were first inserted;
- the lookup equations of every operation, for arbitrary association lists;
- the ordered-keys invariant and its preservation.

Maps of JSON values are in key order in a build without the `preserve_order` feature of
`serde_json`; with it they keep the order of insertion.
-/

namespace Rs2Runtime.Data

universe u v

/-- A finite map as an association list in key order. -/
abbrev OrderedMap (κ : Type u) (ν : Type v) := List (κ × ν)

namespace OrderedMap

variable {κ : Type u} {ν : Type v}

section Operations

variable [DecidableEq κ]

/-- The value stored under a key. -/
def get? (entries : OrderedMap κ ν) (key : κ) : Option ν :=
  match entries with
  | [] => none
  | (other, value) :: rest => if other = key then some value else get? rest key

/-- Remove a key. -/
def erase (entries : OrderedMap κ ν) (key : κ) : OrderedMap κ ν :=
  entries.filter fun entry => entry.1 ≠ key

variable [LT κ] [DecidableLT κ]

/-- Store a value under a key, replacing a previous one, at the key's place in the
order. -/
def insert (entries : OrderedMap κ ν) (key : κ) (value : ν) : OrderedMap κ ν :=
  match entries with
  | [] => [(key, value)]
  | (other, existing) :: rest =>
    if other = key then
      (key, value) :: rest
    else if key < other then
      (key, value) :: (other, existing) :: rest
    else
      (other, existing) :: insert rest key value

/-- Insert every entry of `additions`, in order. -/
def extend (entries additions : OrderedMap κ ν) : OrderedMap κ ν :=
  additions.foldl (fun built entry => built.insert entry.1 entry.2) entries

/-- Build a map by inserting entries one after another. -/
def ofList (entries : List (κ × ν)) : OrderedMap κ ν :=
  extend [] entries

/-- Store a value under a key at the place where the key was first inserted. -/
def insertInPlace (entries : List (κ × ν)) (key : κ) (value : ν) : List (κ × ν) :=
  match entries with
  | [] => [(key, value)]
  | (other, existing) :: rest =>
    if other = key then (key, value) :: rest else (other, existing) :: insertInPlace rest key value

end Operations

/-! ## Lookup equations -/

variable {entries : OrderedMap κ ν} {key : κ} {value : ν}

section Lookup

variable [DecidableEq κ]

@[simp]
theorem get?_nil (key : κ) : get? ([] : OrderedMap κ ν) key = none := rfl

theorem get?_cons (other key : κ) (value : ν) (rest : OrderedMap κ ν) :
    get? ((other, value) :: rest) key = if other = key then some value else get? rest key :=
  rfl

theorem get?_eq_none : entries.get? key = none ↔ key ∉ entries.map Prod.fst := by
  induction entries with
  | nil => simp
  | cons entry rest ih =>
    obtain ⟨other, value⟩ := entry
    rw [get?_cons]
    by_cases same : other = key
    · simp [same]
    · simp [same, ih, Ne.symm same]

theorem mem_of_get? (found : entries.get? key = some value) : (key, value) ∈ entries := by
  induction entries with
  | nil => cases found
  | cons entry rest ih =>
    obtain ⟨other, existing⟩ := entry
    rw [get?_cons] at found
    split at found
    next same =>
      cases found
      rw [same]
      exact List.mem_cons_self
    next => exact List.mem_cons_of_mem _ (ih found)

/-- With distinct keys every entry is the one its key finds. -/
theorem get?_of_mem (distinct : (entries.map Prod.fst).Nodup) (member : (key, value) ∈ entries) :
    entries.get? key = some value := by
  induction entries with
  | nil => cases member
  | cons entry rest ih =>
    obtain ⟨other, existing⟩ := entry
    simp only [List.map_cons, List.nodup_cons] at distinct
    rw [get?_cons]
    rcases List.mem_cons.mp member with same | inRest
    · cases same
      simp
    · have differs : other ≠ key := by
        rintro rfl
        exact distinct.1 (List.mem_map_of_mem inRest)
      rw [if_neg differs]
      exact ih distinct.2 inRest

/-- With distinct keys the direction of the search does not matter. -/
theorem get?_reverse (distinct : (entries.map Prod.fst).Nodup) (key : κ) :
    get? entries.reverse key = entries.get? key := by
  have reversed : (entries.reverse.map Prod.fst).Nodup := by
    rw [List.map_reverse]
    exact List.nodup_reverse.mpr distinct
  cases found : entries.get? key with
  | none =>
    rw [get?_eq_none] at found ⊢
    rwa [List.map_reverse, List.mem_reverse]
  | some value => exact get?_of_mem reversed (List.mem_reverse.mpr (mem_of_get? found))

theorem get?_map_value {ω : Type v} (entries : List (κ × ν)) (change : κ → ν → ω) (key : κ) :
    get? (entries.map fun entry => (entry.1, change entry.1 entry.2)) key =
      (get? entries key).map (change key) := by
  induction entries with
  | nil => rfl
  | cons entry rest ih =>
    obtain ⟨other, value⟩ := entry
    rw [List.map_cons, get?_cons, get?_cons]
    by_cases same : other = key
    · rw [if_pos same, if_pos same, same]
      rfl
    · rw [if_neg same, if_neg same, ih]

theorem erase_cons (other key : κ) (value : ν) (rest : OrderedMap κ ν) :
    erase ((other, value) :: rest) key =
      if other = key then erase rest key else (other, value) :: erase rest key := by
  by_cases same : other = key <;> simp [erase, same]

@[simp]
theorem get?_erase_self (entries : OrderedMap κ ν) (key : κ) :
    (entries.erase key).get? key = none := by
  rw [get?_eq_none]
  simp [erase]

@[simp]
theorem get?_erase_of_ne (entries : OrderedMap κ ν) {erased : κ} (differs : key ≠ erased) :
    (entries.erase erased).get? key = entries.get? key := by
  induction entries with
  | nil => rfl
  | cons entry rest ih =>
    obtain ⟨other, value⟩ := entry
    rw [erase_cons, get?_cons]
    by_cases gone : other = erased
    · have missed : other ≠ key := fun same => differs (same ▸ gone)
      rw [if_pos gone, if_neg missed]
      exact ih
    · rw [if_neg gone, get?_cons, ih]

/-- Keeping entries by their keys keeps or drops each key as a whole. -/
theorem get?_filter_keys (entries : OrderedMap κ ν) (keep : κ → Bool) (key : κ) :
    get? (entries.filter fun entry => keep entry.1) key =
      if keep key then entries.get? key else none := by
  induction entries with
  | nil => simp
  | cons entry rest ih =>
    obtain ⟨other, value⟩ := entry
    by_cases same : other = key
    · subst same
      cases kept : keep other with
      | true => simp [kept, get?_cons]
      | false => simpa [kept] using ih
    · cases kept : keep other with
      | true => simpa [kept, get?_cons, same] using ih
      | false => simpa [kept, get?_cons, same] using ih

variable [LT κ] [DecidableLT κ]

@[simp]
theorem get?_insert_self (entries : OrderedMap κ ν) (key : κ) (value : ν) :
    (entries.insert key value).get? key = some value := by
  induction entries with
  | nil => simp [insert, get?_cons]
  | cons entry rest ih =>
    obtain ⟨other, existing⟩ := entry
    unfold insert
    split
    · simp [get?_cons]
    · split
      · simp [get?_cons]
      · simp_all [get?_cons]

@[simp]
theorem get?_insert_of_ne (entries : OrderedMap κ ν) {inserted : κ} (value : ν)
    (differs : key ≠ inserted) : (entries.insert inserted value).get? key = entries.get? key := by
  induction entries with
  | nil => simp [insert, get?_cons, Ne.symm differs]
  | cons entry rest ih =>
    obtain ⟨other, existing⟩ := entry
    unfold insert
    split
    next same => simp [get?_cons, same, Ne.symm differs]
    next =>
      split
      · simp [get?_cons, Ne.symm differs]
      · simp [get?_cons, ih]

theorem get?_insert (entries : OrderedMap κ ν) (inserted key : κ) (value : ν) :
    (entries.insert inserted value).get? key =
      if key = inserted then some value else entries.get? key := by
  by_cases same : key = inserted
  · simp [same]
  · simp [same]

/-- Bulk extension lets the last addition under a key win. -/
theorem get?_extend (entries additions : OrderedMap κ ν) (key : κ) :
    (entries.extend additions).get? key =
      (get? additions.reverse key).or (entries.get? key) := by
  induction additions using List.reverseRecOn with
  | nil => simp [extend]
  | append_singleton initial entry ih =>
    obtain ⟨added, value⟩ := entry
    unfold extend at ih ⊢
    rw [List.foldl_append, List.foldl_cons, List.foldl_nil, get?_insert,
      ih, List.reverse_append, List.reverse_singleton,
      List.singleton_append, get?_cons]
    by_cases same : key = added
    · simp [same]
    · simp [same, Ne.symm same]

omit [LT κ] [DecidableLT κ] in
theorem insertInPlace_of_not_mem {entries : List (κ × ν)} (value : ν)
    (absent : key ∉ entries.map Prod.fst) :
    insertInPlace entries key value = entries ++ [(key, value)] := by
  induction entries with
  | nil => rfl
  | cons entry rest ih =>
    rw [List.map_cons, List.mem_cons, not_or] at absent
    rw [insertInPlace, if_neg fun same => absent.1 same.symm, ih absent.2]
    rfl

omit [LT κ] [DecidableLT κ] in
/-- Entries with distinct keys stay as they were inserted. -/
theorem foldl_insertInPlace {front entries : List (κ × ν)}
    (distinct : ((front ++ entries).map Prod.fst).Nodup) :
    entries.foldl (fun built entry => insertInPlace built entry.1 entry.2) front =
      front ++ entries := by
  induction entries generalizing front with
  | nil => exact (List.append_nil front).symm
  | cons entry rest ih =>
    have absent : entry.1 ∉ front.map Prod.fst := by
      rw [List.map_append, List.nodup_append] at distinct
      exact fun member => distinct.2.2 _ member _ List.mem_cons_self rfl
    have same : front ++ entry :: rest = (front ++ [entry]) ++ rest := by simp
    rw [List.foldl_cons, insertInPlace_of_not_mem entry.2 absent, same]
    exact ih (same ▸ distinct)

theorem get?_ofList (entries : List (κ × ν)) (key : κ) :
    get? (ofList entries) key = get? entries.reverse key := by
  rw [ofList, get?_extend, get?_nil, Option.or_none]

end Lookup

/-! ## The order of the keys -/

section Order

variable [LT κ]

/-- Keys stand in strictly increasing order, so each occurs once. -/
def Ordered (entries : OrderedMap κ ν) : Prop :=
  (entries.map Prod.fst).Pairwise (· < ·)

theorem ordered_nil : Ordered ([] : OrderedMap κ ν) :=
  List.Pairwise.nil

section Insertion

variable [DecidableEq κ] [DecidableLT κ]

theorem mem_keys_insert {inserted : κ} :
    key ∈ (entries.insert inserted value).map Prod.fst ↔
      key = inserted ∨ key ∈ entries.map Prod.fst := by
  induction entries with
  | nil => simp [insert]
  | cons entry rest ih =>
    obtain ⟨other, existing⟩ := entry
    unfold insert
    split
    next same => simp [same]
    next =>
      split
      · simp
      · simp only [List.map_cons, List.mem_cons, ih]
        tauto

theorem mem_keys_ofList (entries : List (κ × ν)) (key : κ) :
    key ∈ (ofList entries).map Prod.fst ↔ key ∈ entries.map Prod.fst := by
  have same : (ofList entries).get? key = none ↔ get? entries.reverse key = none := by
    rw [get?_ofList]
  rw [get?_eq_none, get?_eq_none, List.map_reverse, List.mem_reverse] at same
  exact not_iff_not.mp same

end Insertion

variable [IsStrictTotalOrder κ (· < ·)]

theorem Ordered.nodup (ordered : Ordered entries) : (entries.map Prod.fst).Nodup := by
  refine List.Pairwise.imp ?_ ordered
  rintro left right smaller rfl
  exact irrefl left smaller

variable [DecidableEq κ] [DecidableLT κ]

theorem Ordered.insert (ordered : Ordered entries) (key : κ) (value : ν) :
    Ordered (entries.insert key value) := by
  induction entries with
  | nil => simp [Ordered, OrderedMap.insert]
  | cons entry rest ih =>
    obtain ⟨other, existing⟩ := entry
    simp only [Ordered, List.map_cons, List.pairwise_cons] at ordered
    unfold OrderedMap.insert
    split
    next same =>
      simp only [Ordered, List.map_cons, List.pairwise_cons, ← same]
      exact ordered
    next differs =>
      split
      next smaller =>
        simp only [Ordered, List.map_cons, List.pairwise_cons, List.mem_cons]
        refine ⟨?_, ordered⟩
        rintro later (rfl | member)
        · exact smaller
        · exact Trans.trans smaller (ordered.1 later member)
      next notSmaller =>
        simp only [Ordered, List.map_cons, List.pairwise_cons]
        refine ⟨?_, ih ordered.2⟩
        intro later member
        rcases mem_keys_insert.mp member with rfl | member
        · rcases trichotomous_of (· < ·) later other with smaller | same | larger
          · exact absurd smaller notSmaller
          · exact absurd same.symm differs
          · exact larger
        · exact ordered.1 later member

/-- Extension by a map: its own entries win. -/
theorem Ordered.get?_extend {additions : OrderedMap κ ν} (ordered : Ordered additions)
    (entries : OrderedMap κ ν) (key : κ) :
    (entries.extend additions).get? key = (additions.get? key).or (entries.get? key) := by
  rw [OrderedMap.get?_extend, get?_reverse ordered.nodup]

theorem Ordered.extend (ordered : Ordered entries) (additions : OrderedMap κ ν) :
    Ordered (entries.extend additions) := by
  unfold OrderedMap.extend
  induction additions generalizing entries with
  | nil => exact ordered
  | cons entry rest ih =>
    exact ih (ordered.insert entry.1 entry.2)

theorem ordered_ofList (entries : List (κ × ν)) : Ordered (ofList entries) :=
  ordered_nil.extend entries

/-- Entries with distinct keys are all kept, and no others are. -/
theorem length_ofList_iff (entries : List (κ × ν)) :
    (ofList entries).length = entries.length ↔ (entries.map Prod.fst).Nodup := by
  have nodup := (ordered_ofList entries).nodup
  constructor
  · intro sameLength
    have within : ((ofList entries).map Prod.fst).Subperm (entries.map Prod.fst) :=
      nodup.subperm fun key => (mem_keys_ofList entries key).mp
    have perm : ((ofList entries).map Prod.fst).Perm (entries.map Prod.fst) := by
      refine within.perm_of_length_le ?_
      rw [List.length_map, List.length_map, sameLength]
    exact perm.nodup_iff.mp nodup
  · intro distinct
    have perm := (List.perm_ext_iff_of_nodup nodup distinct).mpr (mem_keys_ofList entries)
    simpa using perm.length_eq

end Order

end OrderedMap

end Rs2Runtime.Data
