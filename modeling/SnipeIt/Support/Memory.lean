import Mathlib.Algebra.Group.Nat.Defs
import Mathlib.Data.List.Basic
import Mathlib.Data.List.Range
import Mathlib.Tactic.Common

/-! # Cells by address

A memory maps every address to a cell. An array of the program is the part of
a memory below its length: what lies behind the array is whatever the caller
puts there, so a copy that runs past the end still has a value.
-/

namespace SnipeIt.Support.Memory

variable {α : Type*}

def read (m : ℕ → α) (a n : ℕ) : List α := (List.range' a n).map m

/-- The memory after `bs` was stored from address `a` on. -/
def write (m : ℕ → α) (a : ℕ) (bs : List α) : ℕ → α :=
  fun i => if h : a ≤ i ∧ i - a < bs.length then bs[i - a] else m i

/-- An array of length `n`, with `outside` behind its end. -/
def extend {n : ℕ} (cells : Fin n → α) (outside : ℕ → α) : ℕ → α :=
  fun i => if h : i < n then cells ⟨i, h⟩ else outside i

def restrict (n : ℕ) (m : ℕ → α) : Fin n → α := fun i => m i

/-- Difference of two sizes, computed modulo `2 ^ 64`. -/
def sizeSub (a b : ℕ) : ℕ := (a + 2 ^ 64 - b % 2 ^ 64) % 2 ^ 64

@[simp] theorem read_length (m : ℕ → α) (a n : ℕ) : (read m a n).length = n := by
  simp [read]

@[simp] theorem read_zero (m : ℕ → α) (a : ℕ) : read m a 0 = [] := rfl

theorem read_succ (m : ℕ → α) (a n : ℕ) : read m a (n + 1) = m a :: read m (a + 1) n := by
  simp [read, List.range'_succ]

theorem read_add (m : ℕ → α) (a n k : ℕ) :
    read m a (n + k) = read m a n ++ read m (a + n) k := by
  rw [read, ← List.range'_append_1, List.map_append]
  rfl

theorem take_read (m : ℕ → α) (a n k : ℕ) (h : k ≤ n) : (read m a n).take k = read m a k := by
  obtain ⟨j, rfl⟩ := Nat.exists_eq_add_of_le h
  rw [read_add, List.take_left' (read_length m a k)]

theorem drop_read (m : ℕ → α) (a n k : ℕ) (h : k ≤ n) :
    (read m a n).drop k = read m (a + k) (n - k) := by
  obtain ⟨j, rfl⟩ := Nat.exists_eq_add_of_le h
  rw [read_add, List.drop_left' (read_length m a k), Nat.add_sub_cancel_left]

theorem read_congr {m m' : ℕ → α} {a n : ℕ} (h : ∀ i, a ≤ i → i < a + n → m i = m' i) :
    read m a n = read m' a n := by
  apply List.map_congr_left
  intro i hi
  rw [List.mem_range'_1] at hi
  exact h i hi.1 hi.2

theorem write_outside (m : ℕ → α) (a : ℕ) (bs : List α) (i : ℕ)
    (h : i < a ∨ a + bs.length ≤ i) : write m a bs i = m i := by
  rw [write, dif_neg]
  omega

@[simp] theorem write_nil (m : ℕ → α) (a : ℕ) : write m a [] = m := by
  funext i
  apply write_outside
  simp only [List.length_nil]
  omega

theorem write_cons (m : ℕ → α) (a : ℕ) (b : α) (bs : List α) :
    write m a (b :: bs) = write (write m a [b]) (a + 1) bs := by
  funext i
  by_cases hi : i = a
  · subst i
    simp [write]
  · rw [write, write]
    by_cases h : a ≤ i ∧ i - a < (b :: bs).length
    · have h' : a + 1 ≤ i ∧ i - (a + 1) < bs.length := by
        simp only [List.length_cons] at h
        omega
      rw [dif_pos h, dif_pos h']
      have hidx : i - a = i - (a + 1) + 1 := by omega
      simp [hidx]
    · have h' : ¬ (a + 1 ≤ i ∧ i - (a + 1) < bs.length) := by
        simp only [List.length_cons] at h
        omega
      rw [dif_neg h, dif_neg h', write_outside]
      simp only [List.length_cons, List.length_nil]
      omega

theorem write_append (m : ℕ → α) (a : ℕ) (bs bs' : List α) :
    write m a (bs ++ bs') = write (write m a bs) (a + bs.length) bs' := by
  induction bs generalizing m a with
  | nil => simp
  | cons b bs ih =>
    rw [List.cons_append, write_cons, ih, ← write_cons, List.length_cons, Nat.add_right_comm,
      Nat.add_assoc]

theorem foldl_write (m : ℕ → α) (a n : ℕ) (f : ℕ → α) :
    (List.range n).foldl (fun m i => write m (a + i) [f i]) m =
      write m a ((List.range n).map f) := by
  induction n with
  | zero => simp
  | succ n ih =>
    rw [List.range_succ, List.foldl_append, ih, List.map_append, write_append, List.length_map,
      List.length_range]
    rfl

theorem write_write_self (m : ℕ → α) (a : ℕ) (bs : List α) :
    write (write m a bs) a bs = write m a bs := by
  funext i
  by_cases h : a ≤ i ∧ i - a < bs.length
  · rw [write, write, dif_pos h, dif_pos h]
  · rw [write, dif_neg h]

theorem read_write_self (m : ℕ → α) (a : ℕ) (bs : List α) :
    read (write m a bs) a bs.length = bs := by
  induction bs generalizing m a with
  | nil => rfl
  | cons b bs ih =>
    rw [write_cons, List.length_cons, read_succ, ih, write_outside _ _ _ _ (by omega)]
    simp [write]

theorem read_write_disjoint (m : ℕ → α) (a : ℕ) (bs : List α) (c n : ℕ)
    (h : c + n ≤ a ∨ a + bs.length ≤ c) : read (write m a bs) c n = read m c n := by
  apply read_congr
  intro i hlo hhi
  exact write_outside m a bs i (by omega)

theorem extend_restrict (n : ℕ) (m outside : ℕ → α) (i : ℕ) (h : i < n) :
    extend (restrict n m) outside i = m i := by
  simp [extend, restrict, h]

theorem read_extend_restrict (n : ℕ) (m outside : ℕ → α) (a k : ℕ) (h : a + k ≤ n) :
    read (extend (restrict n m) outside) a k = read m a k := by
  apply read_congr
  intro i _ hi
  exact extend_restrict n m outside i (by omega)

/-- Inside the array the cells behind it do not matter. -/
theorem read_extend_inside {n : ℕ} (cells : Fin n → α) (o o' : ℕ → α) (a k : ℕ)
    (h : a + k ≤ n) : read (extend cells o) a k = read (extend cells o') a k := by
  apply read_congr
  intro i _ hi
  have hi' : i < n := by omega
  simp [extend, hi']

theorem sizeSub_of_le {a b : ℕ} (h : b ≤ a) (ha : a < 2 ^ 64) : sizeSub a b = a - b := by
  rw [sizeSub]
  omega

end SnipeIt.Support.Memory
