import Mathlib.Data.Int.Log
import Mathlib.Data.Rat.Floor
import SnipeIt.Support.HalfEven

/-! # Rounding to a binary format

The number that a binary floating point format has in the place of a rational one: the
nearest of so many bits, and of two the even one. The exponent is bounded below only, so
there is no infinity.
-/

namespace SnipeIt.Support

/-- The exponent of the last bit. -/
def lastBit (precision : ℕ) (minExponent : ℤ) (q : ℚ) : ℤ :=
  max minExponent (Int.log 2 |q| + 1 - precision)

def roundBinary (precision : ℕ) (minExponent : ℤ) (q : ℚ) : ℚ :=
  halfEven (q / 2 ^ lastBit precision minExponent q) * 2 ^ lastBit precision minExponent q

variable {precision : ℕ} {minExponent : ℤ} {q : ℚ}

/-- A multiple of a power that the last bit divides stays what it is. -/
theorem roundBinary_of_multiple {k : ℤ} (n : ℤ) (hq : q = n * 2 ^ k)
    (hk : lastBit precision minExponent q ≤ k) : roundBinary precision minExponent q = q := by
  obtain ⟨j, hj⟩ := Int.eq_ofNat_of_zero_le (sub_nonneg.mpr hk)
  have hne : (2 : ℚ) ^ lastBit precision minExponent q ≠ 0 := zpow_ne_zero _ two_ne_zero
  have hquot : q / 2 ^ lastBit precision minExponent q = ((n * 2 ^ j : ℤ) : ℚ) := by
    have hpow : (2 : ℚ) ^ k = 2 ^ j * 2 ^ lastBit precision minExponent q := by
      rw [← zpow_natCast, ← zpow_add₀ two_ne_zero, ← hj, sub_add_cancel]
    rw [div_eq_iff hne]
    push_cast
    rw [mul_assoc, ← hpow]
    exact hq
  rw [roundBinary, hquot, halfEven_intCast, ← hquot, div_mul_cancel₀ _ hne]

theorem lastBit_le {k : ℤ} (hmin : minExponent ≤ k) (hne : q ≠ 0)
    (hq : |q| < 2 ^ (k + precision)) : lastBit precision minExponent q ≤ k := by
  have hlog : Int.log 2 |q| < k + precision :=
    (Int.lt_zpow_iff_log_lt (b := 2) (by decide) (abs_pos.mpr hne)).mp (by exact_mod_cast hq)
  exact max_le hmin (by omega)

/-- Whole numbers of so many bits are in the format. -/
theorem roundBinary_intCast (hmin : minExponent ≤ 0) {n : ℤ} (h : |n| < 2 ^ precision) :
    roundBinary precision minExponent n = n := by
  rcases eq_or_ne n 0 with rfl | hne
  · exact roundBinary_of_multiple 0 (by simp) le_rfl
  · refine roundBinary_of_multiple (k := 0) n (by simp)
      (lastBit_le hmin (by exact_mod_cast hne) ?_)
    rw [zero_add, zpow_natCast]
    exact_mod_cast h

theorem roundBinary_neg (precision : ℕ) (minExponent : ℤ) (q : ℚ) :
    roundBinary precision minExponent (-q) = -roundBinary precision minExponent q := by
  rw [roundBinary, roundBinary, lastBit, lastBit, abs_neg, neg_div, halfEven_neg, Int.cast_neg,
    neg_mul]

/-- The error is half a unit of the last bit at most. -/
theorem abs_roundBinary_sub_le {k : ℤ} (hmin : minExponent ≤ k) (hq : |q| < 2 ^ (k + precision)) :
    |roundBinary precision minExponent q - q| ≤ 2 ^ k / 2 := by
  rcases eq_or_ne q 0 with rfl | hne
  · rw [roundBinary, zero_div, ← Int.cast_zero, halfEven_intCast, Int.cast_zero, zero_mul, sub_zero,
      abs_zero]
    exact (half_pos (zpow_pos two_pos k)).le
  have hunit : (0 : ℚ) < 2 ^ lastBit precision minExponent q := zpow_pos two_pos _
  have hle : (2 : ℚ) ^ lastBit precision minExponent q ≤ 2 ^ k :=
    zpow_le_zpow_right₀ one_le_two (lastBit_le hmin hne hq)
  have herror := abs_halfEven_sub_le (q / 2 ^ lastBit precision minExponent q)
  calc |roundBinary precision minExponent q - q|
      = |(halfEven (q / 2 ^ lastBit precision minExponent q) : ℚ) -
          q / 2 ^ lastBit precision minExponent q| * 2 ^ lastBit precision minExponent q := by
        rw [← abs_of_pos hunit, ← abs_mul, abs_of_pos hunit, sub_mul, div_mul_cancel₀ _ hunit.ne',
          roundBinary]
    _ ≤ 1 / 2 * 2 ^ lastBit precision minExponent q :=
        mul_le_mul_of_nonneg_right herror hunit.le
    _ ≤ 2 ^ k / 2 := by linarith

/-- A number near enough to a fraction has the same whole part, if it is the same when the fraction
is whole. -/
theorem floor_eq_of_near {r : ℚ} {d : ℕ} {n : ℤ} (hd : 0 < d) (hq : q * d = n)
    (hnear : |r - q| < 1 / d) (hwhole : ∀ m : ℤ, q = m → r = q) : ⌊r⌋ = ⌊q⌋ := by
  have hd' : (0 : ℚ) < d := Nat.cast_pos.mpr hd
  obtain ⟨hlow, hhigh⟩ := abs_lt.mp hnear
  have hdiv : q = n / d := (eq_div_iff hd'.ne').mpr hq
  have hbelow : q + 1 / d ≤ ⌊q⌋ + 1 := by
    have hlt : (n : ℚ) < (⌊q⌋ + 1) * d := hq ▸ mul_lt_mul_of_pos_right (Int.lt_floor_add_one q) hd'
    have hlt' : n + 1 ≤ (⌊q⌋ + 1) * d := by exact_mod_cast hlt
    nth_rewrite 1 [hdiv]
    rw [← add_div, div_le_iff₀ hd']
    exact_mod_cast hlt'
  refine Int.floor_eq_iff.mpr ⟨?_, by linarith⟩
  rcases (Int.floor_le q).eq_or_lt with heq | hgt
  · rw [hwhole ⌊q⌋ heq.symm]
    exact Int.floor_le q
  · have habove : ⌊q⌋ + 1 / d ≤ q := by
      have hlt : (⌊q⌋ * d : ℚ) < n := hq ▸ mul_lt_mul_of_pos_right hgt hd'
      have hlt' : ⌊q⌋ * d + 1 ≤ n := by exact_mod_cast hlt
      nth_rewrite 2 [hdiv]
      rw [le_div_iff₀ hd', add_mul, one_div_mul_cancel hd'.ne']
      exact_mod_cast hlt'
    linarith

theorem roundBinary_mem (hmin : minExponent ≤ 0) (hprec : 0 < precision) (h : 0 ≤ q ∧ q ≤ 1) :
    0 ≤ roundBinary precision minExponent q ∧ roundBinary precision minExponent q ≤ 1 := by
  obtain ⟨hnonneg, hle⟩ := h
  have hlast : lastBit precision minExponent q ≤ 0 := by
    have hlog : Int.log 2 |q| ≤ 0 := by
      rcases hnonneg.eq_or_lt with rfl | hpos
      · rw [abs_zero, Int.log_zero_right]
      · rw [abs_of_pos hpos, ← Int.log_one_right (R := ℚ) 2]
        exact Int.log_mono_right hpos hle
    exact max_le hmin (by omega)
  obtain ⟨j, hj⟩ := Int.eq_ofNat_of_zero_le (neg_nonneg.mpr hlast)
  have hpow : (2 : ℚ) ^ lastBit precision minExponent q = (2 ^ j)⁻¹ := by
    rw [← neg_neg (lastBit precision minExponent q), hj, zpow_neg, zpow_natCast]
  have hpos : (0 : ℚ) < 2 ^ j := pow_pos two_pos j
  rw [roundBinary, hpow, div_inv_eq_mul, ← div_eq_mul_inv, div_le_one hpos]
  constructor
  · have hround : 0 ≤ halfEven (q * 2 ^ j) :=
      le_halfEven (by exact_mod_cast mul_nonneg hnonneg hpos.le)
    exact div_nonneg (by exact_mod_cast hround) hpos.le
  · have hround : halfEven (q * 2 ^ j) ≤ 2 ^ j := by
      refine halfEven_le ?_
      push_cast
      exact mul_le_of_le_one_left hpos.le hle
    exact_mod_cast hround

end SnipeIt.Support
