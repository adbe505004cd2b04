import Mathlib.Algebra.BigOperators.Fin
import Mathlib.Data.UInt
import Mathlib.Tactic.Abel

/-! # Additive checksums

The sum of a sequence, and the pair of it with the sum of the running sums, over
any commutative group. A change of one element changes the sum; a change of two
neighbours changes the pair.
-/

namespace SnipeIt.Support.Checksum

section Sums

variable {M : Type*} [AddCommMonoid M]

/-- The sum of the running sums: an element counts as often as there are elements from it on. -/
def runningSum : List M → M
  | [] => 0
  | x :: xs => (xs.length + 1) • x + runningSum xs

/-- The sum and the sum of the running sums, in one pass from two given sums. -/
def fletcherFrom (sums : M × M) (xs : List M) : M × M :=
  xs.foldl (fun sums x => (sums.1 + x, sums.2 + (sums.1 + x))) sums

theorem foldl_add (start : M) (xs : List M) : xs.foldl (· + ·) start = start + xs.sum := by
  induction xs generalizing start with
  | nil => simp
  | cons x xs ih => rw [List.foldl_cons, ih, List.sum_cons, add_assoc]

theorem fletcherFrom_eq (a b : M) (xs : List M) :
    fletcherFrom (a, b) xs = (a + xs.sum, b + xs.length • a + runningSum xs) := by
  induction xs generalizing a b with
  | nil => simp [fletcherFrom, runningSum]
  | cons x xs ih =>
    have hstep : fletcherFrom (a, b) (x :: xs) = fletcherFrom (a + x, b + (a + x)) xs := rfl
    rw [hstep, ih, List.sum_cons, List.length_cons, runningSum, Prod.mk.injEq]
    constructor
    · exact add_assoc a x xs.sum
    · simp only [add_nsmul, one_nsmul, nsmul_add]
      abel

theorem fletcherFrom_zero (xs : List M) :
    fletcherFrom (0, 0) xs = (xs.sum, runningSum xs) := by
  rw [fletcherFrom_eq, zero_add, nsmul_zero, zero_add, zero_add]

/-- A map that respects addition does so with the running sums. -/
theorem map_runningSum {N : Type*} [AddCommMonoid N] (f : M →+ N) (xs : List M) :
    f (runningSum xs) = runningSum (xs.map f) := by
  induction xs with
  | nil => simp [runningSum]
  | cons x xs ih => rw [runningSum, map_add, map_nsmul, ih, List.map_cons, runningSum,
      List.length_map]

theorem runningSum_ofFn {n : ℕ} (f : Fin n → M) :
    runningSum (List.ofFn f) = ∑ i : Fin n, (n - i.val) • f i := by
  induction n with
  | zero => simp [runningSum]
  | succ n ih =>
    rw [List.ofFn_succ, runningSum, List.length_ofFn, ih, Fin.sum_univ_succ]
    congr 1
    apply Finset.sum_congr rfl
    intro i _
    rw [Fin.val_succ, Nat.add_sub_add_right]

end Sums

section Detection

variable {G : Type*} [AddCommGroup G]

/-- Two sequences that are one apart at most have one sum only if they are the same. -/
theorem eq_of_sum_eq {xs ys : List G} {i : ℕ} (hlength : xs.length = ys.length)
    (hagree : ∀ j, j ≠ i → xs[j]? = ys[j]?) (hsum : xs.sum = ys.sum) : xs = ys := by
  induction xs generalizing ys i with
  | nil => exact (List.eq_nil_of_length_eq_zero hlength.symm).symm
  | cons x xs ih =>
    cases ys with
    | nil => cases hlength
    | cons y ys =>
      rw [List.sum_cons, List.sum_cons] at hsum
      cases i with
      | zero =>
        have htail : xs = ys := by
          apply List.ext_getElem?
          intro j
          exact hagree (j + 1) (by omega)
        subst htail
        rw [add_right_cancel hsum]
      | succ i =>
        have hhead : x = y := Option.some.inj (hagree 0 (by omega))
        subst hhead
        rw [ih (i := i) (Nat.succ.inj hlength) (fun j hj => hagree (j + 1) (by omega))
          (add_left_cancel hsum)]

/-- Both sums together determine the first two elements: what the first lacks in the sum, the second
has too much, and the running sums weigh them differently. -/
theorem pair_eq_of_fletcher_eq {x x' y y' : G} {xs : List G}
    (hsum : (x :: x' :: xs).sum = (y :: y' :: xs).sum)
    (hrunning : runningSum (x :: x' :: xs) = runningSum (y :: y' :: xs)) : x = y ∧ x' = y' := by
  have hpair : x + x' = y + y' := by
    simp only [List.sum_cons, ← add_assoc] at hsum
    exact add_right_cancel hsum
  have hfirst : x = y := by
    simp only [runningSum, List.length_cons, ← add_assoc] at hrunning
    have hweighted := add_right_cancel hrunning
    rw [add_nsmul x (xs.length + 1), add_nsmul y (xs.length + 1), one_nsmul, one_nsmul,
      add_right_comm, add_right_comm _ y, ← nsmul_add, ← nsmul_add, hpair] at hweighted
    exact add_left_cancel hweighted
  subst hfirst
  exact ⟨rfl, add_left_cancel hpair⟩

/-- Two sequences that differ in two neighbours at most have both sums in common only if they are
the same. -/
theorem eq_of_fletcher_eq {xs ys : List G} {i : ℕ} (hlength : xs.length = ys.length)
    (hagree : ∀ j, j ≠ i → j ≠ i + 1 → xs[j]? = ys[j]?) (hsum : xs.sum = ys.sum)
    (hrunning : runningSum xs = runningSum ys) : xs = ys := by
  induction xs generalizing ys i with
  | nil => exact (List.eq_nil_of_length_eq_zero hlength.symm).symm
  | cons x xs ih =>
    cases ys with
    | nil => cases hlength
    | cons y ys =>
      have htails : xs.length = ys.length := Nat.succ.inj hlength
      cases i with
      | succ i =>
        have hhead : x = y := Option.some.inj (hagree 0 (by omega) (by omega))
        subst hhead
        rw [List.sum_cons, List.sum_cons] at hsum
        rw [runningSum, runningSum, htails] at hrunning
        have hagree' (j : ℕ) (hj : j ≠ i) (hj' : j ≠ i + 1) : xs[j]? = ys[j]? :=
          hagree (j + 1) (by omega) (by omega)
        rw [ih htails hagree' (add_left_cancel hsum) (add_left_cancel hrunning)]
      | zero =>
        cases xs with
        | nil =>
          rw [List.eq_nil_of_length_eq_zero htails.symm] at hsum ⊢
          rw [add_right_cancel hsum]
        | cons x' xs =>
          cases ys with
          | nil => cases htails
          | cons y' ys =>
            have htail : xs = ys := by
              apply List.ext_getElem?
              intro j
              exact hagree (j + 2) (by omega) (by omega)
            subst htail
            obtain ⟨hfirst, hsecond⟩ := pair_eq_of_fletcher_eq hsum hrunning
            rw [hfirst, hsecond]

/-- Where only the last element may differ, one of the sums is enough. -/
theorem eq_of_runningSum_eq {xs ys : List G} (hlength : xs.length = ys.length)
    (hagree : ∀ j, j + 1 < xs.length → xs[j]? = ys[j]?)
    (hrunning : runningSum xs = runningSum ys) : xs = ys := by
  induction xs generalizing ys with
  | nil => exact (List.eq_nil_of_length_eq_zero hlength.symm).symm
  | cons x xs ih =>
    cases ys with
    | nil => cases hlength
    | cons y ys =>
      have htails : xs.length = ys.length := Nat.succ.inj hlength
      rw [runningSum, runningSum, ← htails] at hrunning
      cases xs with
      | nil =>
        rw [List.eq_nil_of_length_eq_zero htails.symm] at hrunning ⊢
        have hlast : x = y := by simpa [runningSum, one_nsmul] using hrunning
        rw [hlast]
      | cons x' xs =>
        have hhead : x = y := Option.some.inj (hagree 0 (by simp))
        subst hhead
        rw [ih htails (fun j hj => hagree (j + 1) (by simpa using hj)) (add_left_cancel hrunning)]

end Detection

section Bytes

/-- Numbers modulo 256. -/
def byteHom : ℕ →+ UInt8 where
  toFun := UInt8.ofNat
  map_zero' := rfl
  map_add' := UInt8.ofNat_add

theorem toNat_byteHom (n : ℕ) : (byteHom n).toNat = n % 256 := UInt8.toNat_ofNat'

theorem map_byteHom (bs : List UInt8) : (bs.map UInt8.toNat).map byteHom = bs := by
  rw [List.map_map]
  exact (List.map_congr_left fun b _ => UInt8.ofNat_toNat).trans (List.map_id bs)

theorem toNat_sum (bs : List UInt8) : bs.sum.toNat = (bs.map UInt8.toNat).sum % 256 := by
  rw [← toNat_byteHom, map_list_sum, map_byteHom]

theorem toNat_runningSum (bs : List UInt8) :
    (runningSum bs).toNat = runningSum (bs.map UInt8.toNat) % 256 := by
  rw [← toNat_byteHom, map_runningSum, map_byteHom]

end Bytes

end SnipeIt.Support.Checksum
