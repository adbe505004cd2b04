import Mathlib.Algebra.Order.Floor.Ring
import Mathlib.Algebra.Order.Field.Basic
import Mathlib.Algebra.Order.AbsoluteValue.Basic
import Mathlib.Algebra.Ring.Int.Parity
import Mathlib.Tactic.Linarith
import Mathlib.Tactic.Ring

/-! # Rounding to the nearest integer, ties to even

The rounding of Python's `round` and of `printf`, over any field with a floor.
-/

namespace SnipeIt.Support

variable {K : Type*} [Field K] [LinearOrder K] [IsStrictOrderedRing K] [FloorRing K]

def halfEven (q : K) : ℤ :=
  if Int.fract q < 1 - Int.fract q then ⌊q⌋
  else if 1 - Int.fract q < Int.fract q then ⌊q⌋ + 1
  else if Even ⌊q⌋ then ⌊q⌋ else ⌊q⌋ + 1

omit [IsStrictOrderedRing K] in
/-- It is one of the two integers around, and then the nearer one. -/
theorem halfEven_cases (q : K) :
    (halfEven q = ⌊q⌋ ∧ Int.fract q ≤ 1 - Int.fract q) ∨
      (halfEven q = ⌊q⌋ + 1 ∧ 1 - Int.fract q ≤ Int.fract q) := by
  unfold halfEven
  split_ifs with hlt hgt heven
  · exact Or.inl ⟨rfl, hlt.le⟩
  · exact Or.inr ⟨rfl, hgt.le⟩
  · exact Or.inl ⟨rfl, not_lt.mp hgt⟩
  · exact Or.inr ⟨rfl, not_lt.mp hlt⟩

theorem abs_halfEven_sub_le (q : K) : |(halfEven q : K) - q| ≤ 1 / 2 := by
  have hsplit := Int.floor_add_fract q
  have hnonneg := Int.fract_nonneg q
  have hlt := Int.fract_lt_one q
  rw [abs_le]
  rcases halfEven_cases q with ⟨heq, hhalf⟩ | ⟨heq, hhalf⟩
  · rw [heq]
    constructor <;> linarith
  · rw [heq]
    push_cast
    constructor <;> linarith

@[simp] theorem halfEven_intCast (n : ℤ) : halfEven (n : K) = n := by
  simp [halfEven]

/-- Halfway between two integers the even one is taken. -/
theorem halfEven_add_half (n : ℤ) : halfEven (n + 1 / 2 : K) = if Even n then n else n + 1 := by
  have hfract : Int.fract (1 / 2 : K) = 1 / 2 :=
    Int.fract_eq_self.mpr ⟨by norm_num, by norm_num⟩
  have hfloor : ⌊(1 / 2 : K)⌋ = 0 := Int.floor_eq_zero_iff.mpr ⟨by norm_num, by norm_num⟩
  rw [halfEven, Int.fract_intCast_add, Int.floor_intCast_add, hfract, hfloor, sub_half, add_zero]
  simp

theorem floor_neg_of_fract {q : K} (h : Int.fract q ≠ 0) : ⌊-q⌋ = -⌊q⌋ - 1 := by
  have hsplit := Int.floor_add_fract q
  have hneg := Int.floor_add_fract (-q)
  rw [Int.fract_neg h] at hneg
  have hcast : ((⌊-q⌋ : ℤ) : K) = ((-⌊q⌋ - 1 : ℤ) : K) := by
    push_cast
    linarith
  exact_mod_cast hcast

theorem halfEven_neg (q : K) : halfEven (-q) = -halfEven q := by
  by_cases hint : Int.fract q = 0
  · have hq : q = (⌊q⌋ : K) := by
      have hsplit := Int.floor_add_fract q
      rw [hint, add_zero] at hsplit
      exact hsplit.symm
    rw [hq, ← Int.cast_neg, halfEven_intCast, halfEven_intCast]
  · have hfloor := floor_neg_of_fract hint
    have heven : Even (-⌊q⌋ - 1) ↔ ¬ Even ⌊q⌋ := by
      rw [Int.even_sub_one, even_neg]
    unfold halfEven
    rw [Int.fract_neg hint, hfloor, sub_sub_cancel]
    rcases lt_trichotomy (Int.fract q) (1 - Int.fract q) with hlt | heq | hgt
    · rw [if_neg hlt.asymm, if_pos hlt, if_pos hlt]
      ring
    · -- the even one of the two on either side
      rw [if_neg heq.not_gt, if_neg heq.not_lt]
      by_cases h : Even ⌊q⌋
      · rw [if_neg fun hodd => heven.mp hodd h, if_neg heq.not_lt, if_neg heq.not_gt, if_pos h]
        ring
      · rw [if_pos (heven.mpr h), if_neg heq.not_lt, if_neg heq.not_gt, if_neg h]
        ring
    · rw [if_pos hgt, if_neg hgt.asymm, if_pos hgt]
      ring

theorem halfEven_mono {p q : K} (h : p ≤ q) : halfEven p ≤ halfEven q := by
  have hfloor : ⌊p⌋ ≤ ⌊q⌋ := Int.floor_le_floor h
  have hp := Int.floor_add_fract p
  have hq := Int.floor_add_fract q
  rcases hfloor.lt_or_eq with hlt | heq
  · rcases halfEven_cases p with ⟨hp, -⟩ | ⟨hp, -⟩ <;>
      rcases halfEven_cases q with ⟨hq, -⟩ | ⟨hq, -⟩ <;> omega
  · rcases halfEven_cases p with ⟨hp', -⟩ | ⟨hp', hup⟩
    · rcases halfEven_cases q with ⟨hq', -⟩ | ⟨hq', -⟩ <;> omega
    · rcases halfEven_cases q with ⟨hq', hdown⟩ | ⟨hq', -⟩
      · -- both are halfway, and so the same
        have hsame : p = q := by
          rw [heq] at hp
          linarith
        rw [hsame]
      · omega

theorem le_halfEven {n : ℤ} {q : K} (h : (n : K) ≤ q) : n ≤ halfEven q := by
  rw [← halfEven_intCast (K := K) n]
  exact halfEven_mono h

theorem halfEven_le {n : ℤ} {q : K} (h : q ≤ (n : K)) : halfEven q ≤ n := by
  rw [← halfEven_intCast (K := K) n]
  exact halfEven_mono h

end SnipeIt.Support
