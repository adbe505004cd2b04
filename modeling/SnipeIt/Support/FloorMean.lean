import Mathlib.Algebra.Order.Floor.Ring
import Mathlib.Algebra.Order.Field.Basic
import Mathlib.Data.Nat.Log
import Mathlib.Order.Interval.Set.UnorderedInterval
import Mathlib.Tactic.Linarith
import Mathlib.Tactic.Ring

/-! # Moving averages rounded down

An integer moves towards another one by a fixed part of the way and is rounded
down. Iterated, it comes down to its target, but from below it stops where the
next step is less than one.
-/

namespace SnipeIt.Support

variable {K : Type*} [Field K] [LinearOrder K] [FloorRing K]

/-- The average of two integers in which the second one has the weight `w`. -/
def floorMean (w : K) (old new : ℤ) : ℤ := ⌊w * new + (1 - w) * old⌋

variable [IsStrictOrderedRing K] {w : K} {old new : ℤ}

theorem floorMean_sub (w : K) (old new : ℤ) :
    floorMean w old new - new = ⌊(1 - w) * ((old - new : ℤ) : K)⌋ := by
  have hsplit : w * new + (1 - w) * old = (1 - w) * ((old - new : ℤ) : K) + (new : K) := by
    push_cast
    ring
  rw [floorMean, hsplit, Int.floor_add_intCast, add_sub_cancel_right]

@[simp] theorem floorMean_self (w : K) (n : ℤ) : floorMean w n n = n := by
  have hleft := floorMean_sub w n n
  rw [sub_self, Int.cast_zero, mul_zero, Int.floor_zero] at hleft
  exact sub_eq_zero.mp hleft

theorem floorMean_mono {old' : ℤ} (hw : w ≤ 1) (h : old ≤ old') (new : ℤ) :
    floorMean w old new ≤ floorMean w old' new :=
  Int.floor_le_floor
    (add_le_add_right (mul_le_mul_of_nonneg_left (Int.cast_le.mpr h) (sub_nonneg.mpr hw)) _)

theorem floorMean_mem (hpos : 0 ≤ w) (hw : w ≤ 1) (old new : ℤ) :
    floorMean w old new ∈ Set.uIcc old new := by
  rcases le_total old new with hle | hle
  · have hcast : (old : K) ≤ new := Int.cast_le.mpr hle
    rw [Set.uIcc_of_le hle]
    constructor
    · rw [floorMean, Int.le_floor]
      linarith [mul_le_mul_of_nonneg_left hcast hpos]
    · exact (floorMean_mono hw hle new).trans_eq (floorMean_self w new)
  · have hcast : (new : K) ≤ old := Int.cast_le.mpr hle
    rw [Set.uIcc_of_ge hle]
    constructor
    · exact (floorMean_self w new).symm.trans_le (floorMean_mono hw hle new)
    · rw [floorMean, Int.floor_le_iff]
      linarith [mul_le_mul_of_nonneg_left hcast hpos]

/-- What two averages cut off together is no less than what the average of the sums cuts off. -/
theorem floorMean_add_le (w : K) (old new old' new' : ℤ) :
    floorMean w old new + floorMean w old' new' ≤ floorMean w (old + old') (new + new') := by
  have hsum : w * ((new + new' : ℤ) : K) + (1 - w) * ((old + old' : ℤ) : K) =
      (w * new + (1 - w) * old) + (w * new' + (1 - w) * old') := by
    push_cast
    ring
  rw [floorMean, floorMean, floorMean, hsum]
  exact Int.le_floor_add _ _

/-- A step leaves no more than the `b`-th part of the way, rounded up. -/
theorem abs_floorMean_sub_le {b : ℕ} (hw : w ≤ 1) (hb : (1 - w) * b ≤ 1) {m : ℕ}
    (h : |old - new| ≤ b * m) : |floorMean w old new - new| ≤ m := by
  have hnonneg : 0 ≤ 1 - w := sub_nonneg.mpr hw
  have hway : |((old - new : ℤ) : K)| ≤ b * m := by exact_mod_cast h
  have hleft : |(1 - w) * ((old - new : ℤ) : K)| ≤ m := by
    calc |(1 - w) * ((old - new : ℤ) : K)| = (1 - w) * |((old - new : ℤ) : K)| := by
          rw [abs_mul, abs_of_nonneg hnonneg]
      _ ≤ (1 - w) * (b * m) := mul_le_mul_of_nonneg_left hway hnonneg
      _ = ((1 - w) * b) * m := (mul_assoc _ _ _).symm
      _ ≤ 1 * m := mul_le_mul_of_nonneg_right hb m.cast_nonneg
      _ = m := one_mul _
  obtain ⟨hlow, hhigh⟩ := abs_le.mp hleft
  rw [floorMean_sub, abs_le]
  constructor
  · rw [Int.le_floor, Int.cast_neg, Int.cast_natCast]
    exact hlow
  · rw [Int.floor_le_iff, Int.cast_natCast]
    exact hhigh.trans_lt (lt_add_one _)

variable {b : ℕ}

/-- What comes within one stays there, whatever the powers of `b` allow for the way. -/
theorem abs_iterate_floorMean_sub_le (hw : w ≤ 1) (hb : (1 - w) * b ≤ 1) {k : ℕ}
    (h : |old - new| ≤ (b : ℤ) ^ k) : |(floorMean w · new)^[k] old - new| ≤ 1 := by
  induction k generalizing old with
  | zero => simpa using h
  | succ k ih =>
    rw [Function.iterate_succ_apply]
    apply ih
    have hstep := abs_floorMean_sub_le hw hb (m := b ^ k) (h.trans_eq (by push_cast; ring))
    exact_mod_cast hstep

theorem abs_le_pow_of_clog (hb : 1 < b) {d : ℤ} {k : ℕ} (h : Nat.clog b d.natAbs ≤ k) :
    |d| ≤ (b : ℤ) ^ k := by
  rw [Int.abs_eq_natAbs]
  exact_mod_cast (Nat.clog_le_iff_le_pow hb).mp h

/-! ## Rest -/

/-- The average rests where it is not above its target and the step would be less than one. -/
theorem floorMean_eq_old_iff (hw : 0 < w) :
    floorMean w old new = old ↔ old ≤ new ∧ w * ((new - old : ℤ) : K) < 1 := by
  have hsplit : w * new + (1 - w) * old = w * ((new - old : ℤ) : K) + (old : K) := by
    push_cast
    ring
  have hstep : floorMean w old new = old ↔ ⌊w * ((new - old : ℤ) : K)⌋ = 0 := by
    rw [floorMean, hsplit, Int.floor_add_intCast, add_eq_right]
  rw [hstep, Int.floor_eq_zero_iff, Set.mem_Ico, mul_nonneg_iff_of_pos_left hw, Int.cast_nonneg_iff,
    sub_nonneg]

/-- From below the target is never reached. -/
theorem floorMean_lt (hw : w < 1) (h : old < new) : floorMean w old new < new := by
  have hcast : ((old - new : ℤ) : K) < 0 := by
    rw [Int.cast_lt_zero, sub_neg]
    exact h
  have hneg : ⌊(1 - w) * ((old - new : ℤ) : K)⌋ < 0 := by
    rw [Int.floor_lt, Int.cast_zero]
    exact mul_neg_of_pos_of_neg (sub_pos.mpr hw) hcast
  rw [← floorMean_sub] at hneg
  exact sub_neg.mp hneg

theorem iterate_floorMean_lt (hw : w < 1) (h : old < new) (k : ℕ) :
    (floorMean w · new)^[k] old < new := by
  induction k with
  | zero => exact h
  | succ k ih =>
    rw [Function.iterate_succ_apply']
    exact floorMean_lt hw ih

theorem le_iterate_floorMean (hpos : 0 ≤ w) (hw : w ≤ 1) (h : new ≤ old) (k : ℕ) :
    new ≤ (floorMean w · new)^[k] old := by
  induction k with
  | zero => exact h
  | succ k ih =>
    rw [Function.iterate_succ_apply']
    have hmem := floorMean_mem hpos hw ((floorMean w · new)^[k] old) new
    rw [Set.uIcc_of_ge ih] at hmem
    exact hmem.1

/-- From above the average comes to its target, from below to the integer before it. -/
theorem iterate_floorMean_eq (hpos : 0 < w) (hw : w < 1) (hb : (1 - w) * b ≤ 1) {k : ℕ}
    (h : |old - new| ≤ (b : ℤ) ^ k) :
    (floorMean w · new)^[k + 1] old = if new ≤ old then new else new - 1 := by
  have hnear := abs_le.mp (abs_iterate_floorMean_sub_le hw.le hb h)
  rw [Function.iterate_succ_apply']
  split_ifs with hside
  · have hle := le_iterate_floorMean hpos.le hw.le hside k
    have hmem := floorMean_mem hpos.le hw.le ((floorMean w · new)^[k] old) new
    rw [Set.uIcc_of_ge hle] at hmem
    obtain ⟨hlow, hhigh⟩ := hmem
    -- one above the target is no place to rest
    have hmoves : (floorMean w · new)^[k] old = new + 1 →
        floorMean w ((floorMean w · new)^[k] old) new ≠ new + 1 := by
      intro heq hrest
      have hbelow := ((floorMean_eq_old_iff hpos).mp (hrest.trans heq.symm)).1
      omega
    omega
  · have hlt := iterate_floorMean_lt hw (not_le.mp hside) k
    have heq : (floorMean w · new)^[k] old = new - 1 := by omega
    have hrest : floorMean w (new - 1) new = new - 1 := by
      rw [floorMean_eq_old_iff hpos, sub_sub_cancel, Int.cast_one, mul_one]
      exact ⟨by omega, hw⟩
    rw [heq, hrest]

end SnipeIt.Support
