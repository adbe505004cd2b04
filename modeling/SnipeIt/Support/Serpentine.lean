import Mathlib.Algebra.Order.Floor.Semiring
import Mathlib.Data.Set.Function
import Mathlib.Logic.Function.Iterate
import Mathlib.Order.Interval.Finset.Nat
import Mathlib.Tactic.FieldSimp
import Mathlib.Tactic.Linarith
import Mathlib.Tactic.Ring

/-! # Serpentine sweeps

A head goes over the rows of a grid, one row to the right and the next one to the
left, and back to the first point from the end of the last row. It may start
anywhere: it comes to the end of its row within a step of the grid, one row after
the other, and so to the first point.
-/

namespace SnipeIt.Support

/-- A state that every step leads to or closer to is reached. -/
theorem exists_iterate_eq {σ : Type*} {f : σ → σ} {t : σ} {P : σ → Prop} {μ : σ → ℕ}
    (hstep : ∀ s, P s → f s = t ∨ P (f s) ∧ μ (f s) < μ s) (s : σ) (hs : P s) :
    ∃ n ≤ μ s + 1, f^[n] s = t := by
  induction hμ : μ s using Nat.strong_induction_on generalizing s with
  | _ m ih =>
    rcases hstep s hs with ht | ⟨hs', hless⟩
    · exact ⟨1, by omega, ht⟩
    · obtain ⟨n, hn, heq⟩ := ih (μ (f s)) (hμ ▸ hless) (f s) hs' rfl
      exact ⟨n + 1, by omega, heq⟩

theorem bijOn_iterate_add {σ β : Type*} {f : σ → σ} {g : σ → β} {s : σ} {n start size : ℕ}
    {t : Set β}
    (h : Set.BijOn (fun k => g (f^[k] (f^[n] s))) (Set.Ico start (start + size)) t) :
    Set.BijOn (fun k => g (f^[k] s)) (Set.Ico (n + start) (n + start + size)) t := by
  have hshift : Set.BijOn (fun k => k - n) (Set.Ico (n + start) (n + start + size))
      (Set.Ico start (start + size)) := by
    constructor
    · rintro k ⟨hlow, hhigh⟩
      exact ⟨by dsimp only; omega, by dsimp only; omega⟩
    constructor
    · rintro k ⟨hlow, -⟩ k' ⟨hlow', -⟩ heq
      dsimp only at heq
      omega
    · rintro k ⟨hlow, hhigh⟩
      exact ⟨n + k, ⟨by omega, by omega⟩, by dsimp only; omega⟩
  apply (h.comp hshift).congr
  rintro k ⟨hlow, -⟩
  dsimp only [Function.comp_apply]
  rw [← Function.iterate_add_apply, Nat.sub_add_cancel (by omega)]

/-- Points that lie `step` apart, in `rows + 1` rows of `cols + 1` points. -/
structure Sweep (α : Type*) [Field α] [LinearOrder α] where
  left : α
  bottom : α
  step : α
  cols : ℕ
  rows : ℕ
  step_pos : 0 < step

structure Head (α : Type*) where
  x : α
  y : α
  rising : Bool

def Head.point {α : Type*} (h : Head α) : α × α := (h.x, h.y)

namespace Sweep

variable {α : Type*} [Field α] [LinearOrder α] (f : Sweep α)

def right : α := f.left + f.step * f.cols

def top : α := f.bottom + f.step * f.rows

def corner : Head α := ⟨f.left, f.bottom, true⟩

def next (h : Head α) : Head α :=
  if h.rising = true ∧ h.x < f.right then { h with x := h.x + f.step }
  else if h.rising = false ∧ f.left < h.x then { h with x := h.x - f.step }
  else if h.y < f.top then { h with y := h.y + f.step, rising := !h.rising }
  else f.corner

def grid : Set (α × α) :=
  {p | ∃ i ≤ f.cols, ∃ j ≤ f.rows, p = (f.left + f.step * (i : α), f.bottom + f.step * (j : α))}

def size : ℕ := (f.cols + 1) * (f.rows + 1)

/-! ## The sweep of the grid -/

/-- The column of the point that comes after `r` others in a row. -/
def column (row r : ℕ) : ℕ := if row % 2 = 0 then r else f.cols - r

def spot (row r : ℕ) : Head α :=
  ⟨f.left + f.step * f.column row r, f.bottom + f.step * row, decide (row % 2 = 0)⟩

def place (k : ℕ) : Head α := f.spot (k / (f.cols + 1)) (k % (f.cols + 1))

theorem spot_zero : f.spot 0 0 = f.corner := by
  simp [spot, corner, column]

theorem size_pos : 0 < f.size := Nat.mul_pos (Nat.succ_pos _) (Nat.succ_pos _)

theorem column_le {row r : ℕ} (hr : r ≤ f.cols) : f.column row r ≤ f.cols := by
  unfold column
  split_ifs <;> omega

theorem column_column {row r : ℕ} (hr : r ≤ f.cols) : f.column row (f.column row r) = r := by
  unfold column
  split_ifs <;> omega

theorem place_add (row r : ℕ) (hr : r ≤ f.cols) :
    f.place (row * (f.cols + 1) + r) = f.spot row r := by
  have hdiv : (row * (f.cols + 1) + r) / (f.cols + 1) = row := by
    rw [Nat.mul_comm, Nat.mul_add_div (Nat.succ_pos _), Nat.div_eq_of_lt (by omega), Nat.add_zero]
  have hmod : (row * (f.cols + 1) + r) % (f.cols + 1) = r := by
    rw [Nat.mul_comm, Nat.mul_add_mod, Nat.mod_eq_of_lt (by omega)]
  rw [place, hdiv, hmod]

theorem row_lt_size {row r : ℕ} (hrow : row ≤ f.rows) (hr : r ≤ f.cols) :
    row * (f.cols + 1) + r < f.size := by
  have hrows : (row + 1) * (f.cols + 1) ≤ f.size := by
    rw [size, Nat.mul_comm (f.cols + 1)]
    exact Nat.mul_le_mul_right _ (Nat.succ_le_succ hrow)
  rw [Nat.succ_mul] at hrows
  omega

/-- Every number below the size is one of a row and a place in it. -/
theorem exists_row {k : ℕ} (hk : k < f.size) :
    ∃ row ≤ f.rows, ∃ r ≤ f.cols, k = row * (f.cols + 1) + r := by
  have hdecomp := Nat.div_add_mod' k (f.cols + 1)
  have hrow : k / (f.cols + 1) < f.rows + 1 := Nat.div_lt_of_lt_mul hk
  have hr : k % (f.cols + 1) < f.cols + 1 := Nat.mod_lt k (Nat.succ_pos f.cols)
  exact ⟨k / (f.cols + 1), by omega, k % (f.cols + 1), by omega, by omega⟩

variable [IsStrictOrderedRing α]

theorem point_lt_iff (a : α) {i j : ℕ} :
    a + f.step * (i : α) < a + f.step * (j : α) ↔ i < j := by
  rw [add_lt_add_iff_left, mul_lt_mul_iff_right₀ f.step_pos, Nat.cast_lt]

theorem left_lt_iff {i : ℕ} : f.left < f.left + f.step * (i : α) ↔ 0 < i := by
  simpa using f.point_lt_iff f.left (i := 0) (j := i)

theorem next_in_row {row r : ℕ} (hr : r < f.cols) : f.next (f.spot row r) = f.spot row (r + 1) := by
  by_cases hrow : row % 2 = 0
  · have hlt : f.left + f.step * (r : α) < f.right := (f.point_lt_iff f.left).mpr hr
    simp only [next, spot, column, hrow, if_true, decide_true, true_and, hlt]
    congr 1
    push_cast
    ring
  · have hlt : f.left < f.left + f.step * ((f.cols - r : ℕ) : α) := f.left_lt_iff.mpr (by omega)
    have hcol : f.cols - r = f.cols - (r + 1) + 1 := by omega
    simp only [next, spot, column, hrow, if_false, decide_false, Bool.false_eq_true, false_and,
      true_and, hlt, if_true]
    congr 1
    rw [hcol]
    push_cast
    ring

theorem next_row {row : ℕ} (hrow : row < f.rows) :
    f.next (f.spot row f.cols) = f.spot (row + 1) 0 := by
  have htop : f.bottom + f.step * (row : α) < f.top := (f.point_lt_iff f.bottom).mpr hrow
  by_cases heven : row % 2 = 0
  · have hodd : ¬ (row + 1) % 2 = 0 := by omega
    simp [next, spot, column, heven, hodd, right, htop]
    ring
  · have hodd : (row + 1) % 2 = 0 := by omega
    simp [next, spot, column, heven, hodd, htop]
    ring

theorem next_last : f.next (f.spot f.rows f.cols) = f.corner := by
  by_cases heven : f.rows % 2 = 0
  · simp [next, spot, column, heven, right, top]
  · simp [next, spot, column, heven, top]

theorem next_place {k : ℕ} (hk : k < f.size) : f.next (f.place k) = f.place ((k + 1) % f.size) := by
  obtain ⟨row, hrow, r, hr, rfl⟩ := f.exists_row hk
  rw [f.place_add row r hr]
  rcases hr.lt_or_eq with hr | rfl
  · have hk' : row * (f.cols + 1) + r + 1 < f.size := f.row_lt_size hrow hr
    rw [Nat.mod_eq_of_lt hk', Nat.add_assoc, f.place_add row (r + 1) hr, f.next_in_row hr]
  · have hnext : row * (f.cols + 1) + f.cols + 1 = (row + 1) * (f.cols + 1) + 0 := by
      rw [Nat.succ_mul, Nat.add_assoc]
      rfl
    rw [hnext]
    rcases hrow.lt_or_eq with hrow | rfl
    · have hk' : (row + 1) * (f.cols + 1) + 0 < f.size := by
        rw [Nat.add_zero, size, Nat.mul_comm (f.cols + 1)]
        exact Nat.mul_lt_mul_of_pos_right (Nat.succ_lt_succ hrow) (Nat.succ_pos _)
      rw [Nat.mod_eq_of_lt hk', f.place_add (row + 1) 0 (Nat.zero_le _), f.next_row hrow]
    · have hk' : (f.rows + 1) * (f.cols + 1) + 0 = f.size := by
        rw [Nat.add_zero, size, Nat.mul_comm]
      have hzero := f.place_add 0 0 (Nat.zero_le _)
      rw [Nat.zero_mul, Nat.zero_add] at hzero
      rw [hk', Nat.mod_self, hzero, f.next_last, f.spot_zero]

theorem iterate_corner (n : ℕ) : f.next^[n] f.corner = f.place (n % f.size) := by
  induction n with
  | zero =>
    have hzero := f.place_add 0 0 (Nat.zero_le _)
    rw [Nat.zero_mul, Nat.zero_add] at hzero
    rw [Function.iterate_zero_apply, Nat.zero_mod, hzero, f.spot_zero]
  | succ n ih =>
    rw [Function.iterate_succ_apply', ih, f.next_place (Nat.mod_lt n f.size_pos), Nat.mod_add_mod]

theorem point_inj {i i' j j' : ℕ}
    (h : (f.left + f.step * (i : α), f.bottom + f.step * (j : α)) =
      (f.left + f.step * (i' : α), f.bottom + f.step * (j' : α))) : i = i' ∧ j = j' := by
  have hstep := f.step_pos.ne'
  simpa [hstep] using h

theorem place_bijOn : Set.BijOn (fun k => (f.place k).point) (Set.Iio f.size) f.grid := by
  constructor
  · intro k hk
    obtain ⟨row, hrow, r, hr, rfl⟩ := f.exists_row hk
    dsimp only
    rw [f.place_add row r hr]
    exact ⟨f.column row r, f.column_le hr, row, hrow, rfl⟩
  constructor
  · intro k hk k' hk' heq
    obtain ⟨row, hrow, r, hr, rfl⟩ := f.exists_row hk
    obtain ⟨row', hrow', r', hr', rfl⟩ := f.exists_row hk'
    dsimp only at heq
    rw [f.place_add row r hr, f.place_add row' r' hr'] at heq
    obtain ⟨hcol, rfl⟩ := f.point_inj heq
    have hback : f.column row (f.column row r) = r := f.column_column hr
    rw [hcol, f.column_column hr'] at hback
    rw [hback]
  · rintro p ⟨i, hi, row, hrow, rfl⟩
    have hcol : f.column row i ≤ f.cols := f.column_le hi
    apply (Set.mem_image _ _ _).mpr
    use row * (f.cols + 1) + f.column row i
    rw [f.place_add row _ hcol, Head.point, spot, f.column_column hi]
    exact ⟨f.row_lt_size hrow hcol, rfl⟩

/-- Any block of steps as long as the grid goes over every point once. -/
theorem sweep_bijOn (start : ℕ) :
    Set.BijOn (fun k => (f.next^[k] f.corner).point) (Set.Ico start (start + f.size)) f.grid := by
  have hmod : Set.BijOn (fun k => k % f.size) (Set.Ico start (start + f.size))
      (Set.Iio f.size) := by
    have hinj := Nat.mod_injOn_Ico start f.size
    have himage := congrArg (fun s : Finset ℕ => (s : Set ℕ)) (Nat.image_Ico_mod start f.size)
    simp only [Finset.coe_image, Finset.coe_Ico, Finset.coe_range] at hinj himage
    exact himage ▸ hinj.bijOn_image
  apply (f.place_bijOn.comp hmod).congr
  intro k _
  dsimp only [Function.comp_apply]
  rw [f.iterate_corner]

/-! ## The first point is reached -/

variable [FloorSemiring α]

/-- The head is not further than a step away from the columns. -/
def Near (h : Head α) : Prop := f.left - f.step ≤ h.x ∧ h.x ≤ f.right + f.step

def colsLeft (h : Head α) : ℕ :=
  if h.rising = true then ⌈(f.right - h.x) / f.step⌉₊ else ⌈(h.x - f.left) / f.step⌉₊

def rowsLeft (h : Head α) : ℕ := ⌈(f.top - h.y) / f.step⌉₊

/-- The steps to the end of the last row, at most. -/
def stepsLeft (h : Head α) : ℕ := (f.cols + 2) * f.rowsLeft h + f.colsLeft h

theorem ceil_sub_one_lt {z : α} (hz : 0 < z) : ⌈z - 1⌉₊ < ⌈z⌉₊ := by
  have hpos : 0 < ⌈z⌉₊ := Nat.ceil_pos.mpr hz
  apply Nat.lt_of_le_sub_one hpos
  rw [Nat.ceil_le, Nat.cast_sub hpos, Nat.cast_one]
  exact sub_le_sub_right (Nat.le_ceil z) 1

variable {f} {h : Head α}

omit [FloorSemiring α] in
theorem Near.next (hh : f.Near h) : f.Near (f.next h) := by
  have hstep := f.step_pos
  have hcols : f.left ≤ f.right := by
    rw [right]
    exact le_add_of_nonneg_right (mul_nonneg hstep.le (Nat.cast_nonneg _))
  obtain ⟨hlow, hhigh⟩ := hh
  unfold Sweep.next
  split_ifs with h1 h2
  · exact ⟨by dsimp only; linarith, by dsimp only; linarith [h1.2]⟩
  · exact ⟨by dsimp only; linarith [h2.2], by dsimp only; linarith⟩
  · exact ⟨hlow, hhigh⟩
  · exact ⟨by dsimp only [corner]; linarith, by dsimp only [corner]; linarith⟩

theorem Near.colsLeft_le (hh : f.Near h) : f.colsLeft h ≤ f.cols + 1 := by
  have hstep := f.step_pos
  obtain ⟨hlow, hhigh⟩ := hh
  unfold right at hhigh
  unfold colsLeft right
  split_ifs
  · rw [Nat.ceil_le, div_le_iff₀ hstep]
    push_cast
    linarith
  · rw [Nat.ceil_le, div_le_iff₀ hstep]
    push_cast
    linarith

theorem ceil_step_lt {x y : α} (hxy : x < y) :
    ⌈(y - (x + f.step)) / f.step⌉₊ < ⌈(y - x) / f.step⌉₊ := by
  have hstep := f.step_pos
  have hshift : (y - (x + f.step)) / f.step = (y - x) / f.step - 1 := by
    field_simp
    ring
  rw [hshift]
  exact ceil_sub_one_lt (div_pos (sub_pos.mpr hxy) hstep)

theorem Near.next_stepsLeft (hh : f.Near h) :
    f.next h = f.corner ∨ f.stepsLeft (f.next h) < f.stepsLeft h := by
  have hnear := hh.next.colsLeft_le
  unfold Sweep.next at hnear ⊢
  split_ifs at hnear ⊢ with h1 h2 h3
  · right
    apply Nat.add_lt_add_left
    rw [colsLeft, colsLeft, if_pos h1.1, if_pos h1.1]
    exact f.ceil_step_lt h1.2
  · right
    apply Nat.add_lt_add_left
    have hfall : ¬ h.rising = true := by
      rw [h2.1]
      exact Bool.false_ne_true
    rw [colsLeft, colsLeft, if_neg hfall, if_neg hfall, sub_sub, add_comm f.step]
    exact f.ceil_step_lt h2.2
  · right
    have hrows : ⌈(f.top - (h.y + f.step)) / f.step⌉₊ < ⌈(f.top - h.y) / f.step⌉₊ :=
      f.ceil_step_lt h3
    have hmul := Nat.mul_le_mul_left (f.cols + 2) (Nat.succ_le_of_lt hrows)
    rw [Nat.mul_succ] at hmul
    rw [stepsLeft, stepsLeft, rowsLeft, rowsLeft]
    dsimp only
    omega
  · exact .inl rfl

/-- From near the columns, the head gets to the first point. -/
theorem Near.reaches (hh : f.Near h) : ∃ n ≤ f.stepsLeft h + 1, f.next^[n] h = f.corner := by
  apply exists_iterate_eq (P := f.Near) _ h hh
  intro h hh
  exact hh.next_stepsLeft.imp_right fun hless => ⟨hh.next, hless⟩

end Sweep

end SnipeIt.Support
