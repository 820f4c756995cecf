import Mathlib
import Rs2Runtime.Json.Double

/-!
Contract: the order of integers and of the doubles they round to.

Owns:
- doubles as rational numbers, and their comparison as that of the rationals;
- that rounding to the nearest integer and to binary64 keeps the order.
-/

namespace Rs2Runtime.Json.Double

/-- The rational number a double stands for. -/
def toRat (double : Double) : ℚ :=
  double.significand * (2 : ℚ) ^ double.exponent

theorem two_zpow_toNat {shift : Int} (positive : 0 ≤ shift) :
    ((2 ^ shift.toNat : Int) : ℚ) = (2 : ℚ) ^ shift := by
  conv_rhs => rw [← Int.toNat_of_nonneg positive]
  rw [zpow_natCast]
  norm_cast

/-- Doubles compare as the numbers they stand for. -/
theorem cmp_eq_compare (left right : Double) :
    left.cmp right = compare left.toRat right.toRat := by
  have scaled (double : Double) (common : Int) (below : common ≤ double.exponent) :
      double.toRat = ((double.significand * 2 ^ (double.exponent - common).toNat : Int) : ℚ) *
        (2 : ℚ) ^ common := by
    rw [Int.cast_mul, two_zpow_toNat (by omega), mul_assoc, ← zpow_add₀ (by norm_num)]
    rw [sub_add_cancel, toRat]
  have positive : (0 : ℚ) < (2 : ℚ) ^ min left.exponent right.exponent := zpow_pos (by norm_num) _
  unfold cmp
  dsimp only
  rw [scaled left _ (min_le_left _ _), scaled right _ (min_le_right _ _)]
  generalize left.significand * 2 ^ (left.exponent - min left.exponent right.exponent).toNat = a
  generalize right.significand * 2 ^ (right.exponent - min left.exponent right.exponent).toNat = b
  rcases lt_trichotomy a b with below | same | above
  · rw [compare_lt_iff_lt.mpr below, compare_lt_iff_lt.mpr]
    exact mul_lt_mul_of_pos_right (by exact_mod_cast below) positive
  · rw [same, compare_eq_iff_eq.mpr rfl, compare_eq_iff_eq.mpr rfl]
  · rw [compare_gt_iff_gt.mpr above, compare_gt_iff_gt.mpr]
    exact mul_lt_mul_of_pos_right (by exact_mod_cast above) positive

/-! ## Rounding to the nearest integer -/

section Nearest

variable {num den : Nat}

/-- The nearest integer is the quotient or its successor, and not the successor below the
middle. -/
theorem roundHalfEven_cases (num den : Nat) :
    roundHalfEven num den = num / den ∧ 2 * (num % den) ≤ den ∨
      roundHalfEven num den = num / den + 1 ∧ den ≤ 2 * (num % den) := by
  unfold roundHalfEven
  dsimp only
  split_ifs
  · exact .inl ⟨rfl, by omega⟩
  · exact .inr ⟨rfl, by omega⟩
  · exact .inl ⟨rfl, by omega⟩
  · exact .inr ⟨rfl, by omega⟩

theorem le_roundHalfEven {k : Nat} (positive : 0 < den) (above : k * den ≤ num) :
    k ≤ roundHalfEven num den := by
  have quotient : k ≤ num / den := (Nat.le_div_iff_mul_le positive).mpr above
  rcases roundHalfEven_cases num den with ⟨rounded, _⟩ | ⟨rounded, _⟩ <;> omega

theorem roundHalfEven_le {k : Nat} (positive : 0 < den) (below : num ≤ k * den) :
    roundHalfEven num den ≤ k := by
  have quotient : num / den ≤ k := Nat.div_le_of_le_mul (by rwa [Nat.mul_comm])
  rcases roundHalfEven_cases num den with ⟨rounded, _⟩ | ⟨rounded, above⟩
  · omega
  · rcases Nat.lt_or_eq_of_le quotient with less | exact_
    · omega
    · -- A whole quotient leaves no remainder to round up.
      have whole := Nat.div_add_mod num den
      rw [exact_, Nat.mul_comm] at whole
      omega

theorem roundHalfEven_mono {larger : Nat} (positive : 0 < den) (le : num ≤ larger) :
    roundHalfEven num den ≤ roundHalfEven larger den := by
  have quotients : num / den ≤ larger / den := Nat.div_le_div_right le
  rcases Nat.lt_or_eq_of_le quotients with less | same
  · have low : roundHalfEven num den ≤ num / den + 1 := by
      rcases roundHalfEven_cases num den with ⟨rounded, _⟩ | ⟨rounded, _⟩ <;> omega
    have high : larger / den ≤ roundHalfEven larger den :=
      le_roundHalfEven positive (Nat.div_mul_le_self larger den)
    omega
  · have remainders : num % den ≤ larger % den := by
      have first := Nat.div_add_mod num den
      have second := Nat.div_add_mod larger den
      rw [same] at first
      omega
    unfold roundHalfEven
    dsimp only
    rw [same]
    split_ifs <;> omega

end Nearest

/-! ## Rounding of integers -/

/-- The exponent of a rounded integer. -/
theorem exponentFor_one {n : Nat} (nonzero : n ≠ 0) : exponentFor n 1 = (Nat.log2 n : Int) - 52 := by
  have lower : 2 ^ Nat.log2 n ≤ n := Nat.log2_self_le nonzero
  unfold exponentFor
  dsimp only
  rw [show Nat.log2 1 = 0 from rfl]
  have fits : 2 ^ 53 * (1 * 2 ^ ((Nat.log2 n : Int) - (0 : Nat) - 53).toNat) ≤
      n * 2 ^ (-((Nat.log2 n : Int) - (0 : Nat) - 53)).toNat := by
    rcases Nat.lt_or_ge (Nat.log2 n) 53 with short | long
    · rw [show ((Nat.log2 n : Int) - (0 : Nat) - 53).toNat = 0 by omega,
        show (-((Nat.log2 n : Int) - (0 : Nat) - 53)).toNat = 53 - Nat.log2 n by omega]
      calc 2 ^ 53 * (1 * 2 ^ 0) = 2 ^ Nat.log2 n * 2 ^ (53 - Nat.log2 n) := by
            rw [← pow_add, Nat.add_sub_of_le short.le]
            norm_num
        _ ≤ n * 2 ^ (53 - Nat.log2 n) := Nat.mul_le_mul_right _ lower
    · rw [show ((Nat.log2 n : Int) - (0 : Nat) - 53).toNat = Nat.log2 n - 53 by omega,
        show (-((Nat.log2 n : Int) - (0 : Nat) - 53)).toNat = 0 by omega]
      calc 2 ^ 53 * (1 * 2 ^ (Nat.log2 n - 53)) = 2 ^ Nat.log2 n := by
            rw [one_mul, ← pow_add, Nat.add_sub_of_le long]
        _ ≤ n * 2 ^ 0 := by simpa using lower
  rw [if_pos fits]
  omega

/-- The double nearest to a natural number. -/
def rounded (n : Nat) : ℚ :=
  (ofRatio n 1).toRat

theorem rounded_eq {n : Nat} (nonzero : n ≠ 0) :
    rounded n = (scaled n 1 ((Nat.log2 n : Int) - 52) : ℚ) * (2 : ℚ) ^ ((Nat.log2 n : Int) - 52) := by
  unfold rounded toRat ofRatio
  rw [if_neg (by exact_mod_cast nonzero)]
  dsimp only
  rw [Int.natAbs_natCast, exponentFor_one nonzero, Int.sign_natCast_of_ne_zero nonzero, one_mul]
  norm_cast

theorem den_pos (exponent : Int) : 0 < 1 * 2 ^ exponent.toNat := by positivity

/-- The significand of a rounded integer has 53 bits. -/
theorem scaled_bounds {n : Nat} (nonzero : n ≠ 0) :
    2 ^ 52 ≤ scaled n 1 ((Nat.log2 n : Int) - 52) ∧
      scaled n 1 ((Nat.log2 n : Int) - 52) ≤ 2 ^ 53 := by
  have lower : 2 ^ Nat.log2 n ≤ n := Nat.log2_self_le nonzero
  have upper : n ≤ 2 ^ (Nat.log2 n + 1) := Nat.lt_log2_self.le
  have shifts : 2 ^ Nat.log2 n * 2 ^ (-((Nat.log2 n : Int) - 52)).toNat =
      2 ^ 52 * (1 * 2 ^ ((Nat.log2 n : Int) - 52).toNat) := by
    rw [one_mul, ← pow_add, ← pow_add]
    congr 1
    omega
  constructor
  · refine le_roundHalfEven (den_pos _) ?_
    rw [← shifts]
    exact Nat.mul_le_mul_right _ lower
  · refine roundHalfEven_le (den_pos _) ?_
    calc n * 2 ^ (-((Nat.log2 n : Int) - 52)).toNat
        ≤ 2 ^ (Nat.log2 n + 1) * 2 ^ (-((Nat.log2 n : Int) - 52)).toNat :=
          Nat.mul_le_mul_right _ upper
      _ = 2 * (2 ^ Nat.log2 n * 2 ^ (-((Nat.log2 n : Int) - 52)).toNat) := by ring
      _ = 2 ^ 53 * (1 * 2 ^ ((Nat.log2 n : Int) - 52).toNat) := by rw [shifts]; ring

/-- A rounded integer lies between the powers of two around it. -/
theorem rounded_bounds {n : Nat} (nonzero : n ≠ 0) :
    (2 : ℚ) ^ Nat.log2 n ≤ rounded n ∧ rounded n ≤ (2 : ℚ) ^ (Nat.log2 n + 1) := by
  obtain ⟨lower, upper⟩ := scaled_bounds nonzero
  have positive : (0 : ℚ) < (2 : ℚ) ^ ((Nat.log2 n : Int) - 52) := zpow_pos (by norm_num) _
  have joined (bits : Nat) (total : Nat) (same : (bits : Int) + ((Nat.log2 n : Int) - 52) = total) :
      (2 : ℚ) ^ total = (2 : ℚ) ^ bits * (2 : ℚ) ^ ((Nat.log2 n : Int) - 52) := by
    rw [← zpow_natCast, ← zpow_natCast, ← zpow_add₀ (by norm_num), same]
  rw [rounded_eq nonzero]
  constructor
  · rw [joined 52 _ (by omega)]
    exact mul_le_mul_of_nonneg_right (by exact_mod_cast lower) positive.le
  · rw [joined 53 _ (by push_cast; omega)]
    exact mul_le_mul_of_nonneg_right (by exact_mod_cast upper) positive.le

theorem rounded_mono {m n : Nat} (positive : 0 < m) (le : m ≤ n) : rounded m ≤ rounded n := by
  have nonzero : m ≠ 0 := positive.ne'
  have nonzero' : n ≠ 0 := (positive.trans_le le).ne'
  have logs : Nat.log2 m ≤ Nat.log2 n := by
    rw [Nat.log2_eq_log_two, Nat.log2_eq_log_two]
    exact Nat.log_mono_right le
  rcases Nat.lt_or_eq_of_le logs with shorter | same
  · calc rounded m ≤ (2 : ℚ) ^ (Nat.log2 m + 1) := (rounded_bounds nonzero).2
      _ ≤ (2 : ℚ) ^ Nat.log2 n := pow_le_pow_right₀ (by norm_num) shorter
      _ ≤ rounded n := (rounded_bounds nonzero').1
  · rw [rounded_eq nonzero, rounded_eq nonzero', same]
    have scales : scaled m 1 ((Nat.log2 n : Int) - 52) ≤ scaled n 1 ((Nat.log2 n : Int) - 52) :=
      roundHalfEven_mono (den_pos _) (Nat.mul_le_mul_right _ le)
    exact mul_le_mul_of_nonneg_right (by exact_mod_cast scales) (zpow_pos (by norm_num) _).le

theorem toRat_ofRatio_neg (n : Int) : (ofRatio (-n) 1).toRat = -(ofRatio n 1).toRat := by
  unfold ofRatio
  by_cases zero : n = 0
  · subst zero
    simp [toRat]
  · rw [if_neg (neg_ne_zero.mpr zero), if_neg zero]
    simp [toRat]

theorem rounded_pos {n : Nat} (positive : 0 < n) : 0 < rounded n :=
  lt_of_lt_of_le (pow_pos (by norm_num) _) (rounded_bounds positive.ne').1

/-- Rounding keeps the order of integers. -/
theorem ofRatio_mono {a b : Int} (le : a ≤ b) : (ofRatio a 1).toRat ≤ (ofRatio b 1).toRat := by
  have zero : (ofRatio 0 1).toRat = 0 := by simp [ofRatio, toRat]
  rcases lt_trichotomy a 0 with negative | rfl | positive
  · obtain ⟨m, rfl⟩ : ∃ m : Nat, a = -m := ⟨a.natAbs, by omega⟩
    rw [toRat_ofRatio_neg]
    have below := rounded_pos (show 0 < m by omega)
    rcases lt_trichotomy b 0 with alsoNegative | rfl | positive
    · obtain ⟨n, rfl⟩ : ∃ n : Nat, b = -n := ⟨b.natAbs, by omega⟩
      rw [toRat_ofRatio_neg]
      exact neg_le_neg (rounded_mono (by omega) (by omega))
    · rw [zero]
      exact neg_nonpos.mpr below.le
    · obtain ⟨n, rfl⟩ : ∃ n : Nat, b = n := ⟨b.natAbs, by omega⟩
      exact (neg_nonpos.mpr below.le).trans (rounded_pos (by omega)).le
  · obtain ⟨n, rfl⟩ : ∃ n : Nat, b = n := ⟨b.natAbs, by omega⟩
    rw [zero]
    rcases Nat.eq_zero_or_pos n with rfl | positive
    · exact zero.ge
    · exact (rounded_pos positive).le
  · obtain ⟨m, rfl⟩ : ∃ m : Nat, a = m := ⟨a.natAbs, by omega⟩
    obtain ⟨n, rfl⟩ : ∃ n : Nat, b = n := ⟨b.natAbs, by omega⟩
    exact rounded_mono (by omega) (by omega)

/-- Integers on the two sides of zero round to different doubles. -/
theorem ofRatio_lt_of_signs {a b : Int} (negative : a < 0) (nonnegative : 0 ≤ b) :
    (ofRatio a 1).toRat < (ofRatio b 1).toRat := by
  obtain ⟨m, rfl⟩ : ∃ m : Nat, a = -m := ⟨a.natAbs, by omega⟩
  have zero : (ofRatio 0 1).toRat = 0 := by simp [ofRatio, toRat]
  rw [toRat_ofRatio_neg]
  exact (neg_lt_zero.mpr (rounded_pos (show 0 < m by omega))).trans_le
    (zero.ge.trans (ofRatio_mono nonnegative))

end Rs2Runtime.Json.Double
