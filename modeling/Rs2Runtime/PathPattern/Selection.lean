import Rs2Runtime.PathPattern.Basic

/-!
Contract: positions and slices of segment lists in 64-bit arithmetic.

Owns:
- the evaluation of an index in machine integers, where an overflow, a bad clamp or an access out
  of bounds panics;
- the elements that a position and a pair of bounds select from a sequence;
- that the evaluation selects these and does not panic, and agrees with the unbounded one.
-/

namespace Rs2Runtime.PathPattern

open Text

/-! ## Machine integers -/

/-- A length, cast to a signed integer. -/
def asI64 (length : Nat) : Int64 :=
  Int64.ofNat length

/-- A signed integer, cast to a position. -/
def asUsize (value : Int64) : Nat :=
  value.toUInt64.toNat

/-- A sum; none where it overflows. -/
def checkedAdd (left right : Int64) : Option Int64 :=
  if -2 ^ 63 ≤ left.toInt + right.toInt ∧ left.toInt + right.toInt < 2 ^ 63 then
    some (left + right)
  else
    none

/-- A value between two bounds; none where the bounds are crossed. -/
def checkedClamp (value low high : Int64) : Option Int64 :=
  if low ≤ high then some (if value < low then low else if high < value then high else value)
  else none

theorem toInt_asI64 {length : Nat} (allocated : length < 2 ^ 63) :
    (asI64 length).toInt = length :=
  Int64.toInt_ofNat_of_lt allocated

theorem toInt_of_checkedAdd {left right : Int64}
    (fits : -2 ^ 63 ≤ left.toInt + right.toInt ∧ left.toInt + right.toInt < 2 ^ 63) :
    ∃ sum, checkedAdd left right = some sum ∧ sum.toInt = left.toInt + right.toInt := by
  refine ⟨left + right, if_pos fits, ?_⟩
  rw [Int64.toInt_add]
  apply Int.bmod_eq_of_le
  · omega
  · omega

theorem asUsize_eq {value : Int64} (nonnegative : 0 ≤ value.toInt) :
    asUsize value = value.toInt.toNat := by
  have bound := value.toInt_lt
  have cast := Int64.toInt_toBitVec value
  rw [BitVec.toInt_eq_toNat_cond] at cast
  have same : asUsize value = value.toBitVec.toNat := rfl
  have small := value.toBitVec.isLt
  split at cast
  · omega
  · omega

/-! ## Evaluation -/

/-- A position or a slice with 64-bit bounds. -/
inductive Index64 where
  | at (position : Int64)
  | slice (start stop : Option Int64)
  deriving DecidableEq, Repr

/-- The index without the bound on its integers. -/
def Index64.wide : Index64 → Index
  | .at position => .at position.toInt
  | .slice start stop => .slice (start.map Int64.toInt) (stop.map Int64.toInt)

/-- A position counted from the start; none inside for one out of range, and none for a panic. -/
def normIndex64 (position : Int64) (length : Nat) : Option (Option Nat) :=
  let length := asI64 length
  (if position < 0 then checkedAdd length position else some position).map fun index =>
    if 0 ≤ index ∧ index < length then some (asUsize index) else none

/-- A bound counted from the start and clamped; none for a panic. -/
def normBound64 (bound length : Int64) : Option Int64 :=
  (if bound < 0 then checkedAdd length bound else some bound).bind fun value =>
    checkedClamp value 0 length

/-- The elements from one position to another; none for a panic. -/
def sliceOf (segments : List Str) (start stop : Nat) : Option (List Str) :=
  if start ≤ stop ∧ stop ≤ segments.length then some ((segments.take stop).drop start) else none

/-- The text that an index selects; none for a panic. -/
def evalIndex64 (segments : List Str) : Index64 → Option (Option Str)
  | .at position =>
    (normIndex64 position segments.length).bind fun found =>
      match found with
      | none => some none
      | some index => segments[index]?.map some
  | .slice start stop =>
    let length := asI64 segments.length
    (normBound64 (start.getD 0) length).bind fun first =>
      (normBound64 (stop.getD length) length).bind fun last =>
        if last ≤ first then some none
        else (sliceOf segments (asUsize first) (asUsize last)).map joinNonempty

/-! ## Sequences -/

/-- The segments that a section has. -/
def Section.segments (url : UrlView) : Section → List Str
  | .path => url.path
  | .base => url.base
  | .full => url.base ++ url.path

/-- A position, counted from the end where it is negative. -/
def counted (position : Int) (length : Nat) : Int :=
  if position < 0 then length + position else position

/-- A counted position, kept between the ends of the sequence. -/
def clamped (position : Int) (length : Nat) : Int :=
  max 0 (min (counted position length) length)

/-- The element at a position. -/
def elementAt (segments : List Str) (position : Int) : Option Str :=
  if 0 ≤ counted position segments.length then segments[(counted position segments.length).toNat]?
  else none

/-- The elements whose positions lie between two bounds. -/
def between (segments : List Str) (low high : Int) : List Str :=
  (segments.zipIdx.filter fun element => low ≤ element.2 ∧ (element.2 : Int) < high).map Prod.fst

/-- What an index selects from a sequence: an element, or the elements between its bounds. -/
def selected (segments : List Str) : Index → Option Str
  | .at position => elementAt segments position
  | .slice start stop =>
    joinNonempty (between segments (clamped (start.getD 0) segments.length)
      (clamped (stop.getD segments.length) segments.length))

section Sequences

variable {segments : List Str}

theorem normBound_eq_clamped (bound : Int) (length : Nat) :
    normBound bound length = (clamped bound length).toNat :=
  rfl

theorem clamped_bounds (position : Int) (length : Nat) :
    0 ≤ clamped position length ∧ clamped position length ≤ length := by
  unfold clamped
  omega

theorem toNat_clamped (position : Int) (length : Nat) :
    ((clamped position length).toNat : Int) = clamped position length :=
  Int.toNat_of_nonneg (clamped_bounds position length).1

/-- Elements between two bounds, by induction on the sequence with the position of its first
element. -/
theorem filter_zipIdx (segments : List Str) (offset first last : Nat) :
    ((segments.zipIdx offset).filter fun element =>
        (first : Int) ≤ element.2 ∧ (element.2 : Int) < last).map Prod.fst =
      (segments.take (last - offset)).drop (first - offset) := by
  induction segments generalizing offset with
  | nil => simp
  | cons segment segments ih =>
    rw [List.zipIdx_cons, List.filter_cons]
    by_cases inside : (first : Int) ≤ offset ∧ (offset : Int) < last
    · have later : last - offset = last - (offset + 1) + 1 := by omega
      have reached : first - offset = 0 := by omega
      have still : first - (offset + 1) = 0 := by omega
      rw [if_pos (decide_eq_true inside), List.map_cons, ih, later, reached, still,
        List.take_succ_cons]
      rfl
    · rw [if_neg (by simpa using inside), ih]
      by_cases before : offset < first
      · have kept : first - offset = first - (offset + 1) + 1 := by omega
        rw [kept]
        by_cases ended : last ≤ offset
        · have none_ : last - offset = 0 := by omega
          have none' : last - (offset + 1) = 0 := by omega
          rw [none_, none']
          simp
        · have later : last - offset = last - (offset + 1) + 1 := by omega
          rw [later, List.take_succ_cons, List.drop_succ_cons]
      · have none_ : last - offset = 0 := by omega
        have none' : last - (offset + 1) = 0 := by omega
        rw [none_, none']
        simp

theorem between_eq (segments : List Str) (first last : Nat) :
    between segments first last = (segments.take last).drop first :=
  filter_zipIdx segments 0 first last

theorem joinNonempty_of_crossed {first last : Nat} (crossed : last ≤ first) :
    joinNonempty ((segments.take last).drop first) = none := by
  have empty : (segments.take last).drop first = [] := by
    apply List.drop_eq_nil_of_le
    rw [List.length_take]
    omega
  rw [empty]
  rfl

/-- The unbounded evaluation selects what the index means. -/
theorem evalUrl_segments (section_ : Section) (index : Index) (url : UrlView) :
    evalUrl (.segments section_ (some index)) url = selected (section_.segments url) index := by
  cases index with
  | «at» position =>
    have unfolded : evalUrl (.segments section_ (some (.at position))) url =
        (normIndex position (section_.segments url).length).bind fun index =>
          (section_.segments url)[index]? := by
      cases section_ <;> rfl
    have normed : normIndex position (section_.segments url).length =
        if 0 ≤ counted position (section_.segments url).length ∧
            counted position (section_.segments url).length < (section_.segments url).length then
          some (counted position (section_.segments url).length).toNat
        else none := rfl
    rw [unfolded, normed, selected, elementAt]
    generalize counted position (section_.segments url).length = index
    by_cases inside : 0 ≤ index ∧ index < (section_.segments url).length
    · rw [if_pos inside, if_pos inside.1]
      rfl
    · rw [if_neg inside]
      by_cases nonnegative : 0 ≤ index
      · rw [if_pos nonnegative]
        symm
        apply List.getElem?_eq_none
        omega
      · rw [if_neg nonnegative]
        rfl
  | slice start stop =>
    have unfolded : evalUrl (.segments section_ (some (.slice start stop))) url =
        (let first := normBound (start.getD 0) (section_.segments url).length
         let last := normBound (stop.getD (section_.segments url).length)
           (section_.segments url).length
         if last ≤ first then none
         else joinNonempty (((section_.segments url).take last).drop first)) := by
      cases section_ <;> rfl
    rw [unfolded, selected, ← toNat_clamped (start.getD 0), ← toNat_clamped (Option.getD stop _),
      between_eq]
    dsimp only [normBound_eq_clamped]
    split
    · rename_i crossed
      exact (joinNonempty_of_crossed crossed).symm
    · rfl

end Sequences

/-! ## Machine evaluation -/

section Machine

variable {segments : List Str} {length : Nat}

/-- A position is counted without overflow, from the end where it is negative. -/
theorem exists_counted (allocated : length < 2 ^ 63) (position : Int64) :
    ∃ value, (if position < 0 then checkedAdd (asI64 length) position else some position) =
        some value ∧ value.toInt = counted position.toInt length := by
  have low := position.le_toInt
  have high := position.toInt_lt
  have zero : (0 : Int64).toInt = 0 := rfl
  unfold counted
  by_cases negative : position < 0
  · have below : position.toInt < 0 := by
      rw [← zero]
      exact Int64.lt_iff_toInt_lt.mp negative
    have length_ := toInt_asI64 allocated
    obtain ⟨sum, added, exact_⟩ := @toInt_of_checkedAdd (asI64 length) position (by omega)
    refine ⟨sum, ?_, ?_⟩
    · rw [if_pos negative, added]
    · rw [if_pos below, exact_, length_]
  · have above : ¬ position.toInt < 0 := by
      rw [← zero]
      exact fun below => negative (Int64.lt_iff_toInt_lt.mpr below)
    refine ⟨position, ?_, ?_⟩
    · rw [if_neg negative]
    · rw [if_neg above]

/-- A bound is counted and clamped without overflow, and lies between the ends. -/
theorem exists_normBound64 (allocated : length < 2 ^ 63) (bound : Int64) :
    ∃ value, normBound64 bound (asI64 length) = some value ∧
      value.toInt = clamped bound.toInt length := by
  obtain ⟨value, found, exact_⟩ := exists_counted allocated bound
  have length_ := toInt_asI64 allocated
  have zero : (0 : Int64).toInt = 0 := rfl
  have ordered : (0 : Int64) ≤ asI64 length := by
    rw [Int64.le_iff_toInt_le, length_, zero]
    omega
  unfold normBound64 checkedClamp clamped
  rw [found, Option.bind_some, if_pos ordered]
  refine ⟨_, rfl, ?_⟩
  rw [← exact_]
  by_cases below : value < 0
  · rw [if_pos below, zero]
    rw [Int64.lt_iff_toInt_lt, zero] at below
    omega
  · rw [if_neg below]
    rw [Int64.lt_iff_toInt_lt, zero] at below
    by_cases above : asI64 length < value
    · rw [if_pos above, length_]
      rw [Int64.lt_iff_toInt_lt, length_] at above
      omega
    · rw [if_neg above]
      rw [Int64.lt_iff_toInt_lt, length_] at above
      omega

theorem evalIndex64_at (allocated : segments.length < 2 ^ 63) (position : Int64) :
    evalIndex64 segments (.at position) = some (elementAt segments position.toInt) := by
  obtain ⟨value, found, exact_⟩ := exists_counted allocated position
  have length_ := toInt_asI64 allocated
  have zero : (0 : Int64).toInt = 0 := rfl
  unfold evalIndex64 normIndex64 elementAt
  dsimp only
  rw [found, Option.map_some, Option.bind_some, ← exact_]
  by_cases inside : 0 ≤ value ∧ value < asI64 segments.length
  · rw [if_pos inside]
    rw [Int64.le_iff_toInt_le, Int64.lt_iff_toInt_lt, zero, length_] at inside
    have reached : value.toInt.toNat < segments.length := by omega
    dsimp only
    rw [if_pos inside.1, asUsize_eq inside.1, List.getElem?_eq_getElem reached]
    rfl
  · rw [if_neg inside]
    rw [Int64.le_iff_toInt_le, Int64.lt_iff_toInt_lt, zero, length_] at inside
    dsimp only
    by_cases nonnegative : 0 ≤ value.toInt
    · rw [if_pos nonnegative, List.getElem?_eq_none (by omega)]
    · rw [if_neg nonnegative]

theorem evalIndex64_slice (allocated : segments.length < 2 ^ 63) (start stop : Option Int64) :
    evalIndex64 segments (.slice start stop) =
      some (selected segments (Index64.slice start stop).wide) := by
  have length_ := toInt_asI64 allocated
  have startWide : (start.getD 0).toInt = (start.map Int64.toInt).getD 0 := by
    cases start <;> rfl
  have stopWide : (stop.getD (asI64 segments.length)).toInt =
      (stop.map Int64.toInt).getD segments.length := by
    cases stop with
    | none => exact length_
    | some stop => rfl
  obtain ⟨first, isFirst, firstExact⟩ := exists_normBound64 allocated (start.getD 0)
  obtain ⟨last, isLast, lastExact⟩ :=
    exists_normBound64 allocated (stop.getD (asI64 segments.length))
  rw [startWide] at firstExact
  rw [stopWide] at lastExact
  have firstBounds := clamped_bounds ((start.map Int64.toInt).getD 0) segments.length
  have lastBounds := clamped_bounds ((stop.map Int64.toInt).getD segments.length) segments.length
  unfold evalIndex64
  dsimp only [Index64.wide, selected]
  rw [isFirst, Option.bind_some, isLast, Option.bind_some,
    ← toNat_clamped (Option.getD _ 0), ← toNat_clamped (Option.getD (stop.map _) _), between_eq,
    ← firstExact, ← lastExact]
  rw [← firstExact] at firstBounds
  rw [← lastExact] at lastBounds
  by_cases crossed : last ≤ first
  · rw [if_pos crossed]
    rw [Int64.le_iff_toInt_le] at crossed
    rw [joinNonempty_of_crossed (by omega)]
  · rw [if_neg crossed]
    rw [Int64.le_iff_toInt_le] at crossed
    rw [asUsize_eq firstBounds.1, asUsize_eq lastBounds.1, sliceOf, if_pos (by omega)]
    rfl

end Machine

/-! ## Texts of indices -/

/-- A bound as it is written; nothing for a missing one. -/
def boundText : Option Int64 → Str
  | none => []
  | some bound => intStr bound.toInt

/-- An index as it is written behind a section. -/
def Index64.text : Index64 → Str
  | .at position => '[' :: (intStr position.toInt ++ [']'])
  | .slice start stop => '[' :: ((boundText start ++ ':' :: boundText stop) ++ [']'])

theorem parseInt_intStr (value : Int64) : parseInt (intStr value.toInt) = .ok value.toInt := by
  have low := value.le_toInt
  have high := value.toInt_lt
  rw [parseInt, trim_intStr, parseI64_intStr low high]

theorem intStr_ne_nil (n : Int) : intStr n ≠ [] := by
  cases n with
  | ofNat n => exact natStr_ne_nil n
  | negSucc n => exact List.cons_ne_nil _ _

theorem parseOptInt_boundText (bound : Option Int64) :
    parseOptInt (boundText bound) = .ok (bound.map Int64.toInt) := by
  cases bound with
  | none => rfl
  | some bound =>
    have shown : trim (boundText (some bound)) = intStr bound.toInt := trim_intStr bound.toInt
    rw [parseOptInt, shown, if_neg (intStr_ne_nil _), parseInt_intStr]
    rfl

theorem colon_notMem_intStr (n : Int) : ':' ∉ intStr n := by
  intro member
  rcases isDigit_or_sign_of_mem_intStr member with digit | sign
  · cases digit
  · cases sign

theorem colon_notMem_boundText (bound : Option Int64) : ':' ∉ boundText bound := by
  cases bound with
  | none => exact List.not_mem_nil
  | some bound => exact colon_notMem_intStr bound.toInt

theorem strip_brackets (inner : Str) :
    (stripStart "[" ('[' :: (inner ++ [']']))).bind (stripEnd "]") = some inner := by
  have started : stripStart "[" ('[' :: (inner ++ [']'])) = some (inner ++ [']']) :=
    stripStart_eq_some.mpr rfl
  have ends : ("]" : Str) <:+ inner ++ [']'] := List.suffix_append inner [']']
  rw [started, Option.bind_some, stripEnd, if_pos ends]
  simp

/-- The text of every index is read as that index. -/
theorem parseIndex_text (index : Index64) : parseIndex index.text = .ok index.wide := by
  cases index with
  | «at» position =>
    rw [parseIndex, Index64.text, strip_brackets]
    dsimp only
    rw [splitOnce_char_eq_none.mpr (colon_notMem_intStr _), parseInt_intStr]
    rfl
  | slice start stop =>
    rw [parseIndex, Index64.text, strip_brackets]
    dsimp only
    rw [splitOnce_char_of_not_mem (colon_notMem_boundText start)]
    dsimp only
    rw [parseOptInt_boundText, parseOptInt_boundText]
    rfl

/-- **Selectors follow sequences.**  A position selects the element at it, counted from the end
where it is negative, and a slice the elements between its clamped bounds; in 64-bit arithmetic
nothing overflows and nothing is accessed out of bounds. -/
theorem selectors_follow_sequences (section_ : Section) (url : UrlView) (index : Index64)
    (allocated : (section_.segments url).length < 2 ^ 63) :
    parseIndex index.text = .ok index.wide ∧
      evalUrl (.segments section_ (some index.wide)) url =
        selected (section_.segments url) index.wide ∧
      evalIndex64 (section_.segments url) index =
        some (selected (section_.segments url) index.wide) := by
  refine ⟨parseIndex_text index, evalUrl_segments section_ index.wide url, ?_⟩
  cases index with
  | «at» position => exact evalIndex64_at allocated position
  | slice start stop => exact evalIndex64_slice allocated start stop

/-- Three segments, from the last but one up to the largest bound. -/
theorem last_two_are_selected :
    evalIndex64 [("a" : Str), "b", "c"] (.slice (some (-2)) (some Int64.maxValue)) =
      some (some ("b/c" : Str)) :=
  (selectors_follow_sequences .path ⟨["a", "b", "c"], [], none, [], []⟩
    (.slice (some (-2)) (some Int64.maxValue)) (by decide)).2.2.trans (by decide +kernel)

end Rs2Runtime.PathPattern
