import Mathlib.Data.List.Basic
import Mathlib.Data.Nat.Notation
import Mathlib.Data.UInt
import Mathlib.Tactic.Common
import Mathlib.Tactic.Ring

/-! # Bits, most significant first

The number that a list of bits spells, the bits of a number, and the bytes that
a register makes of bits that are shifted in one by one.
-/

namespace SnipeIt.Support.Bits

def value (bits : List Bool) : ℕ := bits.foldl (fun v b => 2 * v + b.toNat) 0

def digits : ℕ → ℕ → List Bool
  | 0, _ => []
  | n + 1, v => digits n (v / 2) ++ [v.testBit 0]

@[simp] theorem value_nil : value [] = 0 := rfl

theorem value_concat (bits : List Bool) (b : Bool) :
    value (bits ++ [b]) = 2 * value bits + b.toNat := by
  rw [value, List.foldl_append]
  rfl

@[simp] theorem length_digits (n v : ℕ) : (digits n v).length = n := by
  induction n generalizing v with
  | zero => rfl
  | succ n ih => rw [digits, List.length_append, ih, List.length_singleton]

theorem value_lt (bits : List Bool) : value bits < 2 ^ bits.length := by
  induction bits using List.reverseRecOn with
  | nil => exact Nat.one_pos
  | append_singleton bits b ih =>
    have hb := Bool.toNat_lt b
    rw [value_concat, List.length_append, List.length_singleton, Nat.pow_succ]
    omega

theorem value_digits (n v : ℕ) : value (digits n v) = v % 2 ^ n := by
  induction n generalizing v with
  | zero => rw [Nat.pow_zero, Nat.mod_one, digits, value_nil]
  | succ n ih =>
    have hbit : (v.testBit 0).toNat = v % 2 := by
      rw [Nat.testBit_zero]
      rcases Nat.mod_two_eq_zero_or_one v with h | h <;> rw [h] <;> rfl
    rw [digits, value_concat, ih, hbit, Nat.pow_succ', Nat.mod_mul]
    omega

theorem eq_of_value_eq {bits bits' : List Bool} (hlength : bits.length = bits'.length)
    (h : value bits = value bits') : bits = bits' := by
  induction bits using List.reverseRecOn generalizing bits' with
  | nil => exact (List.eq_nil_of_length_eq_zero hlength.symm).symm
  | append_singleton bits b ih =>
    rcases List.eq_nil_or_concat' bits' with rfl | ⟨front, b', rfl⟩
    · simp at hlength
    · rw [value_concat, value_concat] at h
      have hb := Bool.toNat_lt b
      have hb' := Bool.toNat_lt b'
      have hfront : bits = front := ih (by simpa using hlength) (by omega)
      have hlast : b.toNat = b'.toNat := by omega
      cases b <;> cases b' <;> simp_all

/-! ## Bytes -/

def byte (bits : List Bool) : UInt8 := UInt8.ofNat (value bits)

theorem byte_concat (bits : List Bool) (b : Bool) :
    byte (bits ++ [b]) = (byte bits <<< 1) ||| (if b then 1 else 0) := by
  have hshift : (byte bits <<< 1).toNat = (value bits % 128) <<< 1 := by
    simp [byte, Nat.shiftLeft_eq]
    omega
  have hbit : (if b then 1 else 0 : UInt8).toNat = b.toNat := by
    cases b <;> rfl
  apply UInt8.toNat_inj.mp
  rw [UInt8.toNat_or, hshift, hbit, ← Nat.shiftLeft_add_eq_or_of_lt (Bool.toNat_lt b),
    Nat.shiftLeft_eq, byte, value_concat, UInt8.toNat_ofNat']
  have hb := Bool.toNat_lt b
  omega

theorem byte_digits (b : UInt8) : byte (digits 8 b.toNat) = b := by
  rw [byte, value_digits, Nat.mod_eq_of_lt b.toNat_lt, UInt8.ofNat_toNat]

theorem eq_of_byte_eq {bits bits' : List Bool} (hlength : bits.length = 8)
    (hlength' : bits'.length = 8) (h : byte bits = byte bits') : bits = bits' := by
  apply eq_of_value_eq (hlength.trans hlength'.symm)
  have hlt := value_lt bits
  have hlt' := value_lt bits'
  rw [hlength] at hlt
  rw [hlength'] at hlt'
  have hnat := congrArg UInt8.toNat h
  rw [byte, byte, UInt8.toNat_ofNat', UInt8.toNat_ofNat'] at hnat
  omega

def chunk (bits : List Bool) (j : ℕ) : List Bool := (bits.drop (8 * j)).take 8

theorem length_chunk {bits : List Bool} {j : ℕ} (h : 8 * j + 8 ≤ bits.length) :
    (chunk bits j).length = 8 := by
  rw [chunk, List.length_take, List.length_drop]
  omega

theorem chunk_zero {bits bits' : List Bool} (h : bits.length = 8) :
    chunk (bits ++ bits') 0 = bits := by
  rw [chunk, Nat.mul_zero, List.drop_zero, ← h, List.take_left]

theorem chunk_succ {bits bits' : List Bool} (h : bits.length = 8) (j : ℕ) :
    chunk (bits ++ bits') (j + 1) = chunk bits' j := by
  rw [chunk, Nat.mul_succ, Nat.add_comm, ← h, ← List.drop_drop, List.drop_left, h]
  rfl

theorem byte_chunk_flatMap (bytes : List UInt8) {j : ℕ} (hj : j < bytes.length) :
    byte (chunk (bytes.flatMap fun b => digits 8 b.toNat) j) = bytes[j] := by
  induction bytes generalizing j with
  | nil => cases hj
  | cons b bytes ih =>
    rw [List.flatMap_cons]
    cases j with
    | zero => rw [chunk_zero (length_digits 8 _), byte_digits, List.getElem_cons_zero]
    | succ j =>
      rw [chunk_succ (length_digits 8 _), ih (Nat.lt_of_succ_lt_succ hj), List.getElem_cons_succ]

/-- One bit more, where it does not belong to the byte. -/
theorem chunk_concat_of_ne {bits : List Bool} {j : ℕ} (b : Bool) (h : bits.length / 8 ≠ j) :
    chunk (bits ++ [b]) j = chunk bits j := by
  rcases lt_or_gt_of_ne h with hlt | hgt
  · have hdrop : bits.length + 1 ≤ 8 * j := by omega
    rw [chunk, chunk, List.drop_eq_nil_of_le (by simpa using hdrop),
      List.drop_eq_nil_of_le (by omega)]
  · rw [chunk, chunk, List.drop_append_of_le_length (by omega), List.take_append_of_le_length]
    rw [List.length_drop]
    omega

theorem chunk_concat (bits : List Bool) (b : Bool) :
    chunk (bits ++ [b]) (bits.length / 8) = chunk bits (bits.length / 8) ++ [b] := by
  have hlength : (bits.drop (8 * (bits.length / 8))).length < 8 := by
    rw [List.length_drop]
    omega
  rw [chunk, chunk, List.drop_append_of_le_length (by omega), List.take_of_length_le,
    List.take_of_length_le hlength.le]
  rw [List.length_append, List.length_singleton]
  omega

/-- A bit is shifted into the byte that it belongs to. -/
theorem byte_chunk_concat (bits : List Bool) (b : Bool) (j : ℕ) :
    byte (chunk (bits ++ [b]) j) =
      if bits.length / 8 = j then (byte (chunk bits j) <<< 1) ||| (if b then 1 else 0)
      else byte (chunk bits j) := by
  by_cases h : bits.length / 8 = j
  · rw [if_pos h, ← h, chunk_concat, byte_concat]
  · rw [if_neg h, chunk_concat_of_ne b h]

theorem getElem?_chunk (bits : List Bool) (j k : ℕ) :
    (chunk bits j)[k]? = if k < 8 then bits[8 * j + k]? else none := by
  rw [chunk, List.getElem?_take, List.getElem?_drop]

theorem chunk_modify_ne {bits : List Bool} {i : ℕ} (hi : i < bits.length) :
    chunk (bits.modify i not) (i / 8) ≠ chunk bits (i / 8) := by
  intro heq
  have hplace : i % 8 < 8 := Nat.mod_lt i (by omega)
  have hbit := congrArg (fun bits => bits[i % 8]?) heq
  rw [getElem?_chunk, getElem?_chunk, if_pos hplace, if_pos hplace, Nat.div_add_mod,
    List.getElem?_modify_eq, List.getElem?_eq_getElem hi] at hbit
  simp at hbit

theorem chunk_modify_of_ne {bits : List Bool} {i j : ℕ} (h : i / 8 ≠ j) :
    chunk (bits.modify i not) j = chunk bits j := by
  apply List.ext_getElem?
  intro k
  rw [getElem?_chunk, getElem?_chunk]
  split_ifs with hk
  · exact List.getElem?_modify_ne _ _ (by omega)
  · rfl

end SnipeIt.Support.Bits
