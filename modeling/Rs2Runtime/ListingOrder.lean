import Rs2Runtime.Data.Sorting
import Rs2Runtime.Json.Rounding
import Rs2Runtime.Listing

/-!
Contract: when the listing comparison orders values, and records by them.

Owns:
- the comparison of numbers as exact integers or as doubles;
- the sets of values on which the comparison is a total preorder;
- that records with such values have one order under any sort keys.

## Where it is not an order

Two 64-bit integers compare exactly and every other pair of numbers as doubles.  A fraction that
is the double of two integers is equal to both, and they are not equal to each other.
-/

namespace Rs2Runtime.Listing

open Text Data Json

/-! ## Numbers -/

/-- A 64-bit integer, signed or unsigned. -/
def exactInt? : Number → Option Int
  | .int value => if -(2 ^ 63) ≤ value ∧ value < 2 ^ 64 then some value else none
  | .float _ _ => none

/-- The double nearest to a number, as a rational. -/
def nearest (number : Number) : ℚ :=
  number.asF64.toRat

variable {number left right : Number} {value : Int} {values : Set (Option Value)}

theorem exactInt?_eq_some (isExact : exactInt? number = some value) :
    number = .int value ∧ -(2 ^ 63) ≤ value ∧ value < 2 ^ 64 := by
  cases number with
  | float _ _ => cases isExact
  | int other =>
    simp only [exactInt?, Option.ite_none_right_eq_some, Option.some.injEq] at isExact
    obtain ⟨bounds, rfl⟩ := isExact
    exact ⟨rfl, bounds⟩

theorem asI64_eq_none (inexact : exactInt? number = none) : number.asI64 = none := by
  cases number with
  | float _ _ => rfl
  | int value =>
    simp only [exactInt?, ite_eq_right_iff, reduceCtorEq, imp_false] at inexact
    exact if_neg fun bounds => inexact ⟨bounds.1, by omega⟩

theorem asU64_eq_none (inexact : exactInt? number = none) : number.asU64 = none := by
  cases number with
  | float _ _ => rfl
  | int value =>
    simp only [exactInt?, ite_eq_right_iff, reduceCtorEq, imp_false] at inexact
    exact if_neg fun bounds => inexact ⟨by omega, bounds.2⟩

theorem compareNumbers_of_inexact (inexact : exactInt? left = none ∨ exactInt? right = none) :
    compareNumbers left right = Ord.compare (nearest left) (nearest right) := by
  unfold compareNumbers nearest
  rw [← Double.cmp_eq_compare]
  rcases inexact with inexact | inexact
  · rw [asI64_eq_none inexact, asU64_eq_none inexact]
  · rw [asI64_eq_none inexact, asU64_eq_none inexact]
    cases left.asI64 <;> cases left.asU64 <;> rfl

theorem asI64_int (low : -(2 ^ 63) ≤ value) :
    (Number.int value).asI64 = if value < 2 ^ 63 then some value else none := by
  simp only [Number.asI64, low, true_and]

theorem asU64_int (high : value < 2 ^ 64) :
    (Number.int value).asU64 = if 0 ≤ value then some value.toNat else none := by
  simp only [Number.asU64, high, and_true]

/-- 64-bit integers compare exactly, also across the signs. -/
theorem compareNumbers_of_exact {a b : Int} (isLeft : exactInt? left = some a)
    (isRight : exactInt? right = some b) : compareNumbers left right = Ord.compare a b := by
  obtain ⟨rfl, lowA, highA⟩ := exactInt?_eq_some isLeft
  obtain ⟨rfl, lowB, highB⟩ := exactInt?_eq_some isRight
  have naturals (first : 0 ≤ a) (second : 0 ≤ b) :
      Ord.compare a.toNat b.toNat = Ord.compare a b := by
    rcases lt_trichotomy a b with below | rfl | above
    · rw [compare_lt_iff_lt.mpr (by omega), compare_lt_iff_lt.mpr below]
    · rw [compare_eq_iff_eq.mpr rfl, compare_eq_iff_eq.mpr rfl]
    · rw [compare_gt_iff_gt.mpr (by omega), compare_gt_iff_gt.mpr above]
  have below (first : a < 0) (second : 0 ≤ b) :
      Double.cmp (Number.int a).asF64 (Number.int b).asF64 = Ord.compare a b := by
    rw [Double.cmp_eq_compare]
    show Ord.compare (Double.ofRatio a 1).toRat (Double.ofRatio b 1).toRat = _
    rw [compare_lt_iff_lt.mpr (Double.ofRatio_lt_of_signs first second),
      compare_lt_iff_lt.mpr (by omega)]
  have above (first : 0 ≤ a) (second : b < 0) :
      Double.cmp (Number.int a).asF64 (Number.int b).asF64 = Ord.compare a b := by
    rw [Double.cmp_eq_compare]
    show Ord.compare (Double.ofRatio a 1).toRat (Double.ofRatio b 1).toRat = _
    rw [compare_gt_iff_gt.mpr (Double.ofRatio_lt_of_signs second first),
      compare_gt_iff_gt.mpr (by omega)]
  unfold compareNumbers
  rw [asI64_int lowA, asI64_int lowB, asU64_int highA, asU64_int highB]
  by_cases signedA : a < 2 ^ 63
  · by_cases signedB : b < 2 ^ 63
    · rw [if_pos signedA, if_pos signedB]
    · rw [if_pos signedA, if_neg signedB, if_pos (show 0 ≤ b by omega)]
      by_cases natural : 0 ≤ a
      · rw [if_pos natural]
        exact naturals natural (by omega)
      · rw [if_neg natural]
        exact below (by omega) (by omega)
  · rw [if_neg signedA, if_pos (show 0 ≤ a by omega)]
    by_cases natural : 0 ≤ b
    · rw [if_pos natural]
      exact naturals (by omega) natural
    · rw [if_neg natural]
      exact above (by omega) (by omega)

/-- Two integers and a fraction between them in representation: all three are one double, and the
integers are not equal. -/
def Collide (left middle right : Number) : Prop :=
  ∃ a b, exactInt? left = some a ∧ exactInt? right = some b ∧ a ≠ b ∧ exactInt? middle = none ∧
    nearest left = nearest middle ∧ nearest middle = nearest right

theorem nearest_mono {a b : Int} (isLeft : exactInt? left = some a)
    (isRight : exactInt? right = some b) (le : a ≤ b) : nearest left ≤ nearest right := by
  obtain ⟨rfl, _, _⟩ := exactInt?_eq_some isLeft
  obtain ⟨rfl, _, _⟩ := exactInt?_eq_some isRight
  exact Double.ofRatio_mono le

theorem isLE_compare_iff {α : Type} [LinearOrder α] {left right : α} :
    (Ord.compare left right).isLE = true ↔ left ≤ right := by
  rw [Ordering.isLE_iff_ne_gt, compare_gt_iff_gt]
  exact not_lt

theorem nearest_le_of_isLE (le : (compareNumbers left right).isLE = true) :
    nearest left ≤ nearest right := by
  cases isLeft : exactInt? left with
  | none => rwa [compareNumbers_of_inexact (.inl isLeft), isLE_compare_iff] at le
  | some a =>
    cases isRight : exactInt? right with
    | none => rwa [compareNumbers_of_inexact (.inr isRight), isLE_compare_iff] at le
    | some b =>
      rw [compareNumbers_of_exact isLeft isRight, isLE_compare_iff] at le
      exact nearest_mono isLeft isRight le

theorem compareNumbers_trans {middle : Number} (apart : ¬ Collide left middle right)
    (one : (compareNumbers left middle).isLE = true)
    (two : (compareNumbers middle right).isLE = true) :
    (compareNumbers left right).isLE = true := by
  have low := nearest_le_of_isLE one
  have high := nearest_le_of_isLE two
  cases isLeft : exactInt? left with
  | none =>
    rw [compareNumbers_of_inexact (.inl isLeft), isLE_compare_iff]
    exact low.trans high
  | some a =>
    cases isRight : exactInt? right with
    | none =>
      rw [compareNumbers_of_inexact (.inr isRight), isLE_compare_iff]
      exact low.trans high
    | some b =>
      rw [compareNumbers_of_exact isLeft isRight, isLE_compare_iff]
      cases isMiddle : exactInt? middle with
      | some m =>
        rw [compareNumbers_of_exact isLeft isMiddle, isLE_compare_iff] at one
        rw [compareNumbers_of_exact isMiddle isRight, isLE_compare_iff] at two
        exact one.trans two
      | none =>
        -- A larger integer on the left would have a double that is not smaller.
        by_contra larger
        have back := nearest_mono isRight isLeft (not_le.mp larger).le
        exact apart ⟨a, b, isLeft, isRight, (not_le.mp larger).ne', isMiddle,
          le_antisymm low (high.trans back), le_antisymm high (back.trans low)⟩

/-! ## Values and records -/

theorem isLE_compareStr_iff {left right : Str} :
    (compareStr left right).isLE = true ↔ left ≤ right := by
  unfold compareStr compareOfLessAndEq
  rcases lt_trichotomy left right with below | rfl | above
  · simp [if_pos below, below.le]
  · simp
  · simp [not_lt_of_gt above, ne_of_gt above, above]

/-- No fraction among the values stands for two integers among them. -/
def NumbersApart (values : Set (Option Value)) : Prop :=
  ∀ left middle right, some (.num left) ∈ values → some (.num middle) ∈ values →
    some (.num right) ∈ values → ¬ Collide left middle right

/-- The text by which a value is compared with others of its type, numbers apart. -/
def textOf (codec : Codec) : Value → Str
  | .str text => text
  | .arr items => codec.print (.arr items)
  | .obj fields => codec.print (.obj fields)
  | _ => []

theorem exists_number {value : Value} (number : typeRank value = 3) : ∃ x, value = .num x := by
  unfold typeRank at number
  split at number <;> first | exact ⟨_, rfl⟩ | cases number

theorem compare_eq_textOf {codec : Codec} {left right : Value}
    (same : typeRank left = typeRank right) (other : typeRank left ≠ 3) :
    compare codec left right = compareStr (textOf codec left) (textOf codec right) := by
  unfold compare
  rw [if_pos same]
  unfold typeRank at same
  split at same <;> split at same <;> first | rfl | exact absurd rfl other | cases same

variable {codec : Codec}

theorem isLE_compare_of_rank {left right : Value} (different : typeRank left ≠ typeRank right) :
    (compare codec left right).isLE = true ↔ typeRank left ≤ typeRank right := by
  unfold compare
  rw [if_neg different, isLE_compare_iff]

theorem compare_trans {a b c : Value}
    (apart : ∀ x y z, a = .num x → b = .num y → c = .num z → ¬ Collide x y z)
    (one : (compare codec a b).isLE = true) (two : (compare codec b c).isLE = true) :
    (compare codec a c).isLE = true := by
  have ranks {left right : Value} (le : (compare codec left right).isLE = true) :
      typeRank left ≤ typeRank right := by
    by_cases same : typeRank left = typeRank right
    · exact same.le
    · exact (isLE_compare_of_rank same).mp le
  by_cases different : typeRank a = typeRank c
  · have first : typeRank a = typeRank b := le_antisymm (ranks one) (different ▸ ranks two)
    have second : typeRank b = typeRank c := first.symm.trans different
    by_cases number : typeRank a = 3
    · obtain ⟨x, rfl⟩ := exists_number number
      obtain ⟨y, rfl⟩ := exists_number (first ▸ number)
      obtain ⟨z, rfl⟩ := exists_number (different ▸ number)
      exact compareNumbers_trans (apart x y z rfl rfl rfl) one two
    · rw [compare_eq_textOf first number, isLE_compareStr_iff] at one
      rw [compare_eq_textOf second (first ▸ number), isLE_compareStr_iff] at two
      rw [compare_eq_textOf different number, isLE_compareStr_iff]
      exact one.trans two
  · exact (isLE_compare_of_rank different).mpr ((ranks one).trans (ranks two))

theorem compareOptional_swap (left right : Option Value) :
    compareOptional codec left right = (compareOptional codec right left).swap := by
  cases left <;> cases right <;> first | rfl | exact compare_swap codec _ _

/-- On values whose numbers are apart, the comparison is oriented and transitive. -/
theorem transCmp_of_apart (apart : NumbersApart values) :
    Std.TransCmp fun a b : values => compareOptional codec a.1 b.1 where
  eq_swap := compareOptional_swap _ _
  isLE_trans := by
    rintro ⟨a, inA⟩ ⟨b, inB⟩ ⟨c, inC⟩ one two
    cases a with
    | none => cases c <;> rfl
    | some a =>
      cases b with
      | none => cases one
      | some b =>
        cases c with
        | none => cases two
        | some c =>
          refine compare_trans ?_ one two
          rintro x y z rfl rfl rfl
          exact apart x y z inA inB inC

/-- Records with values that are ordered are ordered by any sort keys. -/
theorem transCmp_records (orders : Std.TransCmp fun a b : values => compareOptional codec a.1 b.1)
    {ρ : Type} (record : ρ → Value) {sort : List (FieldPath × Dir)}
    (inside : ∀ key ∈ sort, ∀ r, lookup key.1 (record r) ∈ values) :
    Std.TransCmp fun a b => compareRecords codec (record a) (record b) sort := by
  induction sort with
  | nil => exact { eq_swap := rfl, isLE_trans := fun _ _ => rfl }
  | cons key keys ih =>
    obtain ⟨path, dir⟩ := key
    have later := ih fun key member => inside key (List.mem_cons_of_mem _ member)
    let field (r : ρ) : values := ⟨lookup path (record r), inside _ List.mem_cons_self r⟩
    have ascending : Std.TransCmp fun a b =>
        compareOptional codec (lookup path (record a)) (lookup path (record b)) :=
      { eq_swap := fun {a b} => @Std.OrientedCmp.eq_swap _ _ orders.toOrientedCmp (field a) (field b)
        isLE_trans := fun {a b c} => @Std.TransCmp.isLE_trans _ _ orders (field a) (field b) (field c) }
    cases dir with
    | asc =>
      have lexicographic : Std.TransCmp (compareLex
        (fun a b => compareOptional codec (lookup path (record a)) (lookup path (record b)))
        fun a b => compareRecords codec (record a) (record b) keys) := inferInstance
      convert lexicographic using 3 with a b
      simp only [compareRecords, compareLex]
      cases compareOptional codec (lookup path (record a)) (lookup path (record b)) <;> rfl
    | desc =>
      have descending : Std.TransCmp fun a b =>
          compareOptional codec (lookup path (record b)) (lookup path (record a)) := ascending.opposite
      have lexicographic : Std.TransCmp (compareLex
        (fun a b => compareOptional codec (lookup path (record b)) (lookup path (record a)))
        fun a b => compareRecords codec (record a) (record b) keys) := inferInstance
      convert lexicographic using 3 with a b
      simp only [compareRecords, compareLex]
      rw [compareOptional_swap (lookup path (record b))]
      cases compareOptional codec (lookup path (record a)) (lookup path (record b)) <;> rfl

/-- The comparison is a total preorder of the values, and sorting by any keys and directions gives
records with such values one order, however they are arranged before. -/
structure OrdersValues (codec : Codec) (values : Set (Option Value)) : Prop where
  reflexive : ∀ a ∈ values, compareOptional codec a a = .eq
  total : ∀ a ∈ values, ∀ b ∈ values,
    compareOptional codec a b ≠ .gt ∨ compareOptional codec b a ≠ .gt
  transitive : ∀ a ∈ values, ∀ b ∈ values, ∀ c ∈ values, compareOptional codec a b ≠ .gt →
    compareOptional codec b c ≠ .gt → compareOptional codec a c ≠ .gt
  equal_symm : ∀ a ∈ values, ∀ b ∈ values, compareOptional codec a b = .eq →
    compareOptional codec b a = .eq
  equal_trans : ∀ a ∈ values, ∀ b ∈ values, ∀ c ∈ values, compareOptional codec a b = .eq →
    compareOptional codec b c = .eq → compareOptional codec a c = .eq
  sorts : ∀ (sort : List (FieldPath × Dir)) (records others : List (Str × Value)),
    (records.map Prod.fst).Nodup →
    (∀ key ∈ sort, ∀ record ∈ records, lookup key.1 record.2 ∈ values) → records.Perm others →
      records.insertionSort (recordLe codec sort) = others.insertionSort (recordLe codec sort)

theorem apart_of_transitive
    (transitive : ∀ a ∈ values, ∀ b ∈ values, ∀ c ∈ values, compareOptional codec a b ≠ .gt →
      compareOptional codec b c ≠ .gt → compareOptional codec a c ≠ .gt) : NumbersApart values := by
  intro left middle right inLeft inMiddle inRight
  rintro ⟨a, b, isLeft, isRight, differ, inexact, low, high⟩
  have equal {x : Number} (same : nearest x = nearest middle) :
      compareNumbers x middle ≠ .gt ∧ compareNumbers middle x ≠ .gt := by
    rw [compareNumbers_of_inexact (.inr inexact), compareNumbers_of_inexact (.inl inexact), same,
      compare_eq_iff_eq.mpr rfl]
    exact ⟨nofun, nofun⟩
  rcases lt_or_gt_of_ne differ with below | above
  · refine transitive _ inRight _ inMiddle _ inLeft (equal high.symm).1 (equal low).2 ?_
    show compareNumbers right left = .gt
    rw [compareNumbers_of_exact isRight isLeft, compare_gt_iff_gt]
    exact below
  · refine transitive _ inLeft _ inMiddle _ inRight (equal low).1 (equal high.symm).2 ?_
    show compareNumbers left right = .gt
    rw [compareNumbers_of_exact isLeft isRight, compare_gt_iff_gt]
    exact above

theorem recordLe_trans (apart : NumbersApart values) {sort : List (FieldPath × Dir)}
    {records : List (Str × Value)}
    (inside : ∀ key ∈ sort, ∀ record ∈ records, lookup key.1 record.2 ∈ values) :
    ∀ left ∈ records, ∀ middle ∈ records, ∀ right ∈ records, recordLe codec sort left middle →
      recordLe codec sort middle right → recordLe codec sort left right := by
  have fields : Std.TransCmp fun a b : { record // record ∈ records } =>
      compareRecords codec a.1.2 b.1.2 sort :=
    transCmp_records (transCmp_of_apart apart)
      (fun record : { record // record ∈ records } => record.1.2)
      fun key member record => inside key member record.1 record.2
  have keys : Std.TransCmp fun a b : { record // record ∈ records } => compareStr a.1.1 b.1.1 :=
    { eq_swap := compareStr_swap _ _
      isLE_trans := fun {a b c} => by
        rw [isLE_compareStr_iff, isLE_compareStr_iff, isLE_compareStr_iff]
        exact le_trans }
  have both : Std.TransCmp (compareLex
    (fun a b : { record // record ∈ records } => compareRecords codec a.1.2 b.1.2 sort)
    fun a b => compareStr a.1.1 b.1.1) := inferInstance
  intro left inLeft middle inMiddle right inRight one two
  exact Ordering.isLE_iff_ne_gt.mp (@Std.TransCmp.isLE_trans _ _ both ⟨left, inLeft⟩
    ⟨middle, inMiddle⟩ ⟨right, inRight⟩ (Ordering.isLE_iff_ne_gt.mpr one)
    (Ordering.isLE_iff_ne_gt.mpr two))

/-- For every set of values, missing ones included, the listing comparison is a total preorder of
them, and gives records one order, exactly if no fraction among them stands for two of their
integers. -/
theorem listing_orders_values_iff (codec : Codec) (values : Set (Option Value)) :
    OrdersValues codec values ↔ NumbersApart values := by
  constructor
  · intro orders
    exact apart_of_transitive orders.transitive
  · intro apart
    have compares := @transCmp_of_apart values codec apart
    refine ⟨fun a inA => ?_, fun a inA b inB => ?_, fun a inA b inB c inC one two => ?_,
      fun a inA b inB same => ?_, fun a inA b inB c inC one two => ?_, ?_⟩
    · have swapped := @compareOptional_swap codec a a
      cases order : compareOptional codec a a <;> rw [order] at swapped <;>
        first | rfl | cases swapped
    · rw [compareOptional_swap b a]
      cases compareOptional codec a b <;> simp
    · exact Ordering.isLE_iff_ne_gt.mp (@Std.TransCmp.isLE_trans _ _ compares ⟨a, inA⟩ ⟨b, inB⟩
        ⟨c, inC⟩ (Ordering.isLE_iff_ne_gt.mpr one) (Ordering.isLE_iff_ne_gt.mpr two))
    · rw [compareOptional_swap, same]
      rfl
    · exact @Std.TransCmp.eq_trans _ _ compares ⟨a, inA⟩ ⟨b, inB⟩ ⟨c, inC⟩ one two
    · intro sort records others distinct inside permuted
      refine Sorting.insertionSort_eq_of_perm permuted
        (fun left _ right _ => recordLe_total codec sort left right) (recordLe_trans apart inside)
        fun left inLeft right inRight below above => ?_
      exact List.inj_on_of_nodup_map distinct inLeft inRight (key_eq_of_recordLe below above)

/-- 2 ^ 53 as a fraction is equal to 2 ^ 53 and to 2 ^ 53 + 1. -/
theorem fraction_equals_two_integers :
    ¬ OrdersValues Tagged.codec {some (.num (.int 9007199254740992)),
      some (.num (.float 90071992547409920 (-1))), some (.num (.int 9007199254740993))} := by
  intro orders
  have same := orders.equal_trans (some (.num (.int 9007199254740992))) (by simp)
    (some (.num (.float 90071992547409920 (-1)))) (by simp)
    (some (.num (.int 9007199254740993))) (by simp)
  exact absurd (same (by decide +kernel) (by decide +kernel)) (by decide +kernel)

end Rs2Runtime.Listing
