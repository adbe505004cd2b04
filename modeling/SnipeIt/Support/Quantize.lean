import Mathlib.Algebra.Order.Field.Basic
import Mathlib.Algebra.Order.Floor.Semiring
import Mathlib.Algebra.Order.Group.Unbundled.Abs
import Mathlib.Tactic.Linarith
import Mathlib.Tactic.FieldSimp
import Mathlib.Tactic.Ring

/-! # Quantities as rounded counts

A quantity from an interval is encoded as the count nearest to an affine function
of it and decoded by the inverse, which may fall outside the interval and is
clamped again.
-/

namespace SnipeIt.Support

/-- A value outside an interval goes to the end that it is next to. -/
def clamp {α : Type*} [LinearOrder α] (lo hi x : α) : α :=
  if x < lo then lo else if hi < x then hi else x

section Clamp

variable {α : Type*} [LinearOrder α] {lo hi x y : α}

theorem le_clamp (h : lo ≤ hi) (x : α) : lo ≤ clamp lo hi x := by
  unfold clamp
  split_ifs with hlow
  · exact le_rfl
  · exact h
  · exact not_lt.mp hlow

theorem clamp_le (h : lo ≤ hi) (x : α) : clamp lo hi x ≤ hi := by
  unfold clamp
  split_ifs with hlow hhigh
  · exact h
  · exact le_rfl
  · exact not_lt.mp hhigh

theorem clamp_of_mem (hlo : lo ≤ x) (hhi : x ≤ hi) : clamp lo hi x = x := by
  rw [clamp, if_neg (not_lt.mpr hlo), if_neg (not_lt.mpr hhi)]

theorem max_min_eq_clamp (h : lo ≤ hi) (x : α) : max lo (min x hi) = clamp lo hi x := by
  unfold clamp
  split_ifs with hlow hhigh
  · rw [min_eq_left (hlow.le.trans h), max_eq_left hlow.le]
  · rw [min_eq_right hhigh.le, max_eq_right h]
  · rw [min_eq_left (not_lt.mp hhigh), max_eq_right (not_lt.mp hlow)]

theorem clamp_mono (h : lo ≤ hi) (hxy : x ≤ y) : clamp lo hi x ≤ clamp lo hi y := by
  by_cases hx : x < lo
  · rw [clamp, if_pos hx]
    exact le_clamp h y
  · by_cases hy : hi < y
    · have hlo : ¬ y < lo := not_lt.mpr (h.trans hy.le)
      rw [clamp.eq_def lo hi y, if_neg hlo, if_pos hy]
      exact clamp_le h x
    · have hlo : lo ≤ x := not_lt.mp hx
      rw [clamp_of_mem hlo (hxy.trans (not_lt.mp hy)), clamp_of_mem (hlo.trans hxy) (not_lt.mp hy)]
      exact hxy

theorem le_clamp_of_le (hx : x ≤ hi) : x ≤ clamp lo hi x := by
  unfold clamp
  split_ifs with hlow hhigh
  · exact hlow.le
  · exact hx
  · exact le_rfl

theorem clamp_le_of_le (hx : lo ≤ x) : clamp lo hi x ≤ x := by
  rw [clamp, if_neg (not_lt.mpr hx)]
  split_ifs with hhigh
  · exact hhigh.le
  · exact le_rfl

/-- To clamp a value brings it closer to what lies inside the interval. -/
theorem abs_clamp_sub_le [AddCommGroup α] [IsOrderedAddMonoid α] (hlo : lo ≤ y) (hhi : y ≤ hi) :
    |clamp lo hi x - y| ≤ |x - y| := by
  have hy : clamp lo hi y = y := clamp_of_mem hlo hhi
  rcases le_total x y with hxy | hxy
  · have hle : clamp lo hi x ≤ y := (clamp_mono (hlo.trans hhi) hxy).trans_eq hy
    rw [abs_sub_comm, abs_sub_comm x, abs_of_nonneg (sub_nonneg.mpr hle),
      abs_of_nonneg (sub_nonneg.mpr hxy)]
    exact sub_le_sub_left (le_clamp_of_le (hxy.trans hhi)) y
  · have hle : y ≤ clamp lo hi x := hy.symm.trans_le (clamp_mono (hlo.trans hhi) hxy)
    rw [abs_of_nonneg (sub_nonneg.mpr hle), abs_of_nonneg (sub_nonneg.mpr hxy)]
    exact sub_le_sub_right (clamp_le_of_le (hlo.trans hxy)) y

end Clamp

/-- An increasing affine encoding of an interval whose counts are not negative. -/
structure Scale (α : Type*) [Field α] [LinearOrder α] where
  lo : α
  hi : α
  offset : α
  slope : α
  lo_le_hi : lo ≤ hi
  slope_pos : 0 < slope
  nonneg : 0 ≤ offset + slope * lo

namespace Scale

variable {α : Type*} [Field α] [LinearOrder α] (s : Scale α)

def exact (x : α) : α := s.offset + s.slope * clamp s.lo s.hi x

def counts [FloorSemiring α] (x : α) : ℕ := ⌊s.exact x + 1 / 2⌋₊

def quantity (n : ℕ) : α := clamp s.lo s.hi ((n - s.offset) / s.slope)

theorem exact_eq {x : α} (hlo : s.lo ≤ x) (hhi : x ≤ s.hi) :
    s.exact x = s.offset + s.slope * x := by
  rw [exact, clamp_of_mem hlo hhi]

theorem counts_clamp [FloorSemiring α] (x : α) : s.counts (clamp s.lo s.hi x) = s.counts x := by
  rw [counts, exact, clamp_of_mem (le_clamp s.lo_le_hi x) (clamp_le s.lo_le_hi x)]
  rfl

/-- A count whose quantity lies in the interval encodes it exactly. -/
theorem exact_of_mem {n : ℕ} (hlo : s.lo ≤ ((n : α) - s.offset) / s.slope)
    (hhi : ((n : α) - s.offset) / s.slope ≤ s.hi) : s.exact (s.quantity n) = n := by
  rw [exact, quantity, clamp_of_mem hlo hhi, clamp_of_mem hlo hhi, mul_div_cancel₀ _
    s.slope_pos.ne', add_sub_cancel]

section Ordered

variable [IsStrictOrderedRing α]

theorem exact_mono {x y : α} (h : x ≤ y) : s.exact x ≤ s.exact y :=
  add_le_add_right (mul_le_mul_of_nonneg_left (clamp_mono s.lo_le_hi h) s.slope_pos.le) _

theorem exact_nonneg (x : α) : 0 ≤ s.exact x :=
  s.nonneg.trans
    (add_le_add_right (mul_le_mul_of_nonneg_left (le_clamp s.lo_le_hi x) s.slope_pos.le) _)

variable [FloorSemiring α]

theorem counts_mono {x y : α} (h : x ≤ y) : s.counts x ≤ s.counts y :=
  Nat.floor_mono (add_le_add_left (s.exact_mono h) _)

theorem abs_counts_sub_le (x : α) : |(s.counts x : α) - s.exact x| ≤ 1 / 2 := by
  have hnonneg : 0 ≤ s.exact x + 1 / 2 := add_nonneg (s.exact_nonneg x) (by norm_num)
  have hlow := Nat.floor_le hnonneg
  have hhigh := Nat.lt_floor_add_one (s.exact x + 1 / 2)
  rw [counts, abs_le]
  constructor <;> linarith

theorem counts_le {n : ℕ} (h : s.offset + s.slope * s.hi ≤ n) (x : α) : s.counts x ≤ n := by
  have hexact : s.exact x ≤ n :=
    (add_le_add_right (mul_le_mul_of_nonneg_left (clamp_le s.lo_le_hi x) s.slope_pos.le) _).trans h
  apply Nat.le_of_lt_succ
  rw [counts, Nat.floor_lt (add_nonneg (s.exact_nonneg x) (by norm_num)), Nat.cast_succ]
  linarith

theorem counts_of_exact {n : ℕ} {x : α} (h : s.exact x = n) : s.counts x = n := by
  rw [counts, h, Nat.floor_eq_iff (by positivity)]
  constructor <;> linarith

theorem le_counts {n : ℕ} {x : α} (h : (n : α) ≤ s.exact x) : n ≤ s.counts x := by
  rw [counts, Nat.le_floor_iff (add_nonneg (s.exact_nonneg x) (by norm_num))]
  linarith

theorem counts_le_of_exact_le {n : ℕ} {x : α} (h : s.exact x ≤ n) : s.counts x ≤ n := by
  apply Nat.le_of_lt_succ
  rw [counts, Nat.floor_lt (add_nonneg (s.exact_nonneg x) (by norm_num)), Nat.cast_succ]
  linarith

/-- Below the interval and above it, the clamped quantity of a count has this count again, as it
lies between the count and the quantity that the count was made of. -/
theorem counts_quantity_counts (x : α) : s.counts (s.quantity (s.counts x)) = s.counts x := by
  have hslope := s.slope_pos
  by_cases hlo : s.lo ≤ ((s.counts x : α) - s.offset) / s.slope
  · by_cases hhi : ((s.counts x : α) - s.offset) / s.slope ≤ s.hi
    · exact s.counts_of_exact (s.exact_of_mem hlo hhi)
    · have habove := not_le.mp hhi
      have hquantity : s.quantity (s.counts x) = s.hi := by
        rw [quantity, clamp, if_neg (not_lt.mpr hlo), if_pos habove]
      rw [hquantity]
      apply le_antisymm
      · apply s.counts_le_of_exact_le
        rw [lt_div_iff₀ hslope] at habove
        rw [s.exact_eq s.lo_le_hi le_rfl]
        linarith
      · rw [← s.counts_clamp x]
        exact s.counts_mono (clamp_le s.lo_le_hi x)
  · have hbelow := not_le.mp hlo
    have hquantity : s.quantity (s.counts x) = s.lo := by
      rw [quantity, clamp, if_pos hbelow]
    rw [hquantity]
    apply le_antisymm
    · rw [← s.counts_clamp x]
      exact s.counts_mono (le_clamp s.lo_le_hi x)
    · apply s.le_counts
      rw [div_lt_iff₀ hslope] at hbelow
      rw [s.exact_eq le_rfl s.lo_le_hi]
      linarith

theorem abs_quantity_counts_sub_le (x : α) :
    |s.quantity (s.counts x) - clamp s.lo s.hi x| ≤ 1 / (2 * s.slope) := by
  have hslope := s.slope_pos
  have hround : |((s.counts x : α) - s.offset) / s.slope - clamp s.lo s.hi x| ≤
      1 / (2 * s.slope) := by
    have heq : ((s.counts x : α) - s.offset) / s.slope - clamp s.lo s.hi x =
        ((s.counts x : α) - s.exact x) / s.slope := by
      rw [exact]
      field_simp
      ring
    rw [heq, abs_div, abs_of_pos hslope, div_le_div_iff₀ hslope (by positivity)]
    nlinarith [s.abs_counts_sub_le x]
  exact (abs_clamp_sub_le (le_clamp s.lo_le_hi x) (clamp_le s.lo_le_hi x)).trans hround

end Ordered

end Scale

end SnipeIt.Support
