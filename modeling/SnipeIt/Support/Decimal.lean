import Mathlib.Data.List.DropRight
import Mathlib.Data.Rat.Floor
import SnipeIt.Support.HalfEven
import SnipeIt.Support.Json
import SnipeIt.Support.Utf8

/-! # Decimal numerals

A number is printed with so many places behind the point, and a numeral of JSON
stands for a number. What is read of a printed number is the number rounded to
its places.
-/

namespace SnipeIt.Support

namespace Json
open Utf8

theorem digits_leftpad (places n : ℕ) :
    (Nat.toDigits 10 n).leftpad places '0' ≠ [] ∧
      ∀ d ∈ (Nat.toDigits 10 n).leftpad places '0', d.isDigit := by
  have hdigits : ∀ d ∈ Nat.toDigits 10 n, d.isDigit := fun d hd =>
    Nat.isDigit_of_mem_toDigits (by decide) (by decide) hd
  constructor
  · exact fun h => Nat.toDigits_ne_nil (List.append_eq_nil_iff.mp h).2
  · intro d hd
    rcases List.mem_append.mp hd with hd | hd
    · rw [List.eq_of_mem_replicate hd]
      rfl
    · exact hdigits d hd

theorem ofDigitChars_leftpad (places n : ℕ) :
    Nat.ofDigitChars 10 ((Nat.toDigits 10 n).leftpad places '0') 0 = n := by
  rw [List.leftpad, Nat.ofDigitChars_append, Nat.ofDigitChars_replicate_zero, Nat.mul_zero,
    Nat.ofDigitChars_ten_toDigits]

theorem length_digits_leftpad {places n : ℕ} (hplaces : 0 < places) (hn : n < 10 ^ places) :
    ((Nat.toDigits 10 n).leftpad places '0').length = places := by
  have hlen := (Nat.length_toDigits_le_iff (b := 10) (by decide) hplaces).mpr hn
  rw [List.length_leftpad, max_eq_left hlen]

theorem printable_printInt (minus : Bool) (n : ℕ) : Printable (printInt minus n) := by
  refine printable_append.mpr ⟨by cases minus <;> decide, printable_digits fun d hd => ?_⟩
  exact Nat.isDigit_of_mem_toDigits (by decide) (by decide) hd

theorem length_printInt_le (minus : Bool) {n k : ℕ} (hk : 0 < k) (hn : n < 10 ^ k) :
    (printInt minus n).length ≤ k + 1 := by
  have hdigits := (Nat.length_toDigits_le_iff (b := 10) (by decide) hk).mpr hn
  cases minus <;> simp [printInt] <;> omega

end Json

namespace Decimal
open Json Utf8

/-! ## Printing -/

/-- The nearest number with so many places, and of two the one with the even last digit. -/
def round (places : ℕ) (q : ℚ) : ℚ := halfEven (q * 10 ^ places) / 10 ^ places

def units (places : ℕ) (q : ℚ) : ℕ := (halfEven (|q| * 10 ^ places)).toNat

/-- The format `%.Nf`, with at least one place. -/
def fixed (places : ℕ) (q : ℚ) : List Char :=
  printInt (q < 0) (units places q / 10 ^ places) ++
    '.' :: (Nat.toDigits 10 (units places q % 10 ^ places)).leftpad places '0'

theorem round_of_places {places : ℕ} {q : ℚ} (n : ℤ) (h : q * 10 ^ places = n) :
    round places q = q := by
  rw [round, h, halfEven_intCast, ← h]
  field_simp

theorem round_mem (places : ℕ) {q : ℚ} {m n : ℤ} (hm : m ≤ q) (hn : q ≤ n) :
    (m : ℚ) ≤ round places q ∧ round places q ≤ n := by
  have hpow : (0 : ℚ) < 10 ^ places := by positivity
  have hlow : m * 10 ^ places ≤ halfEven (q * 10 ^ places) :=
    le_halfEven (by push_cast; exact mul_le_mul_of_nonneg_right hm hpow.le)
  have hhigh : halfEven (q * 10 ^ places) ≤ n * 10 ^ places :=
    halfEven_le (by push_cast; exact mul_le_mul_of_nonneg_right hn hpow.le)
  rw [round, le_div_iff₀ hpow, div_le_iff₀ hpow]
  exact ⟨by exact_mod_cast hlow, by exact_mod_cast hhigh⟩

theorem units_cast (places : ℕ) (q : ℚ) :
    ((units places q : ℕ) : ℤ) = halfEven (|q| * 10 ^ places) := by
  have hnonneg : ((0 : ℤ) : ℚ) ≤ |q| * 10 ^ places := by
    rw [Int.cast_zero]
    positivity
  exact Int.toNat_of_nonneg (le_halfEven hnonneg)

/-- The number is printed as its sign and its units. -/
theorem round_eq_units (places : ℕ) (q : ℚ) :
    round places q = if q < 0 then -(units places q / 10 ^ places : ℚ)
      else units places q / 10 ^ places := by
  have hunits : (units places q : ℚ) = (halfEven (|q| * 10 ^ places) : ℤ) := by
    exact_mod_cast units_cast places q
  rw [round, hunits]
  split_ifs with hq
  · rw [abs_of_neg hq, neg_mul, halfEven_neg, Int.cast_neg, neg_div, neg_neg]
  · rw [abs_of_nonneg (not_lt.mp hq)]

theorem printable_fixed (places : ℕ) (q : ℚ) : Printable (fixed places q) := by
  refine printable_append.mpr ⟨printable_printInt _ _, ?_⟩
  exact List.forall_mem_cons.mpr ⟨by decide, printable_digits (digits_leftpad _ _).2⟩

theorem length_fixed_le {places k m : ℕ} {q : ℚ} (hplaces : 0 < places) (hk : 0 < k)
    (hq : |q| ≤ m) (hm : m < 10 ^ k) : (fixed places q).length ≤ k + places + 2 := by
  have hpos : 0 < 10 ^ places := Nat.pow_pos (by decide)
  have hunits : units places q ≤ m * 10 ^ places := by
    have hle : |q| * 10 ^ places ≤ ((m * 10 ^ places : ℕ) : ℤ) := by
      push_cast
      gcongr
    have hround := halfEven_le hle
    rw [← units_cast] at hround
    exact_mod_cast hround
  have hwhole : units places q / 10 ^ places < 10 ^ k :=
    (Nat.div_le_of_le_mul (hunits.trans_eq (Nat.mul_comm _ _))).trans_lt hm
  have hint := length_printInt_le (decide (q < 0)) hk hwhole
  have hfrac := length_digits_leftpad hplaces (Nat.mod_lt (units places q) hpos)
  rw [fixed, List.length_append, List.length_cons, hfrac]
  omega

def expValue : List Char → ℤ
  | _ :: '-' :: digits => -Nat.ofDigitChars 10 digits 0
  | _ :: '+' :: digits => Nat.ofDigitChars 10 digits 0
  | _ :: digits => Nat.ofDigitChars 10 digits 0
  | [] => 0

def value (literal : List Char) : Option ℚ := do
  let (minus, s) := scanMinus literal
  let (whole, s) ← scanInt s
  let (frac, s) := scanFrac s
  let (exp, s) := scanExp s
  if s = [] then
    let digits := frac.drop 1
    let magnitude : ℚ :=
      Nat.ofDigitChars 10 (whole ++ digits) 0 * 10 ^ (expValue exp - digits.length)
    return if minus = [] then magnitude else -magnitude
  else none

theorem scanFrac_end {digits : List Char} (hne : digits ≠ []) (h : ∀ d ∈ digits, d.isDigit) :
    scanFrac ('.' :: digits) = ('.' :: digits, []) := by
  have htake : digits.takeWhile Char.isDigit = digits := List.takeWhile_eq_self_iff.mpr h
  have hdrop : digits.dropWhile Char.isDigit = [] := List.dropWhile_eq_nil_iff.mpr h
  rw [scanFrac, htake, hdrop, if_neg hne]

theorem value_point (minus : Bool) (n : ℕ) {digits : List Char} (hne : digits ≠ [])
    (h : ∀ d ∈ digits, d.isDigit) :
    value (printInt minus n ++ '.' :: digits) =
      some (if minus then
        -((n * 10 ^ digits.length + Nat.ofDigitChars 10 digits 0 : ℕ) / 10 ^ digits.length : ℚ)
      else (n * 10 ^ digits.length + Nat.ofDigitChars 10 digits 0 : ℕ) / 10 ^ digits.length) := by
  have hdigits : Nat.ofDigitChars 10 (Nat.toDigits 10 n ++ digits) 0 =
      n * 10 ^ digits.length + Nat.ofDigitChars 10 digits 0 := by
    rw [Nat.ofDigitChars_append, Nat.ofDigitChars_ten_toDigits,
      Nat.ofDigitChars_eq_ofDigitChars_zero, Nat.mul_comm]
  rw [value, scanMinus_printInt]
  simp only [scanInt_toDigits n digits (c := '.') (by decide), scanFrac_end hne h, scanExp,
    Option.bind_eq_bind, Option.bind_some, List.drop_one, List.tail_cons, hdigits, expValue,
    zero_sub, zpow_neg, zpow_natCast, if_true, ← div_eq_mul_inv]
  cases minus <;> rfl

theorem value_fixed {places : ℕ} (hplaces : 0 < places) (q : ℚ) :
    value (fixed places q) = some (round places q) := by
  have hpos : 0 < 10 ^ places := Nat.pow_pos (by decide)
  obtain ⟨hne, hdigits⟩ := digits_leftpad places (units places q % 10 ^ places)
  have hlen := length_digits_leftpad hplaces (Nat.mod_lt (units places q) hpos)
  have hunits : units places q / 10 ^ places * 10 ^ places + units places q % 10 ^ places =
      units places q := Nat.div_add_mod' _ _
  rw [fixed, value_point _ _ hne hdigits, hlen, ofDigitChars_leftpad, hunits, round_eq_units]
  simp only [decide_eq_true_eq]

/-! ## Without trailing zeros -/

/-- Digits behind the point without the zeros at their end; one digit is left. -/
def trimZeros (digits : List Char) : List Char :=
  if digits.rdropWhile (· = '0') = [] then ['0'] else digits.rdropWhile (· = '0')

/-- The `repr` of Python for a number with few places. -/
def shortest (places : ℕ) (q : ℚ) : List Char :=
  printInt (q < 0) (units places q / 10 ^ places) ++
    '.' :: trimZeros ((Nat.toDigits 10 (units places q % 10 ^ places)).leftpad places '0')

theorem trimZeros_digits {digits : List Char} (h : ∀ d ∈ digits, d.isDigit) :
    trimZeros digits ≠ [] ∧ ∀ d ∈ trimZeros digits, d.isDigit := by
  rw [trimZeros]
  split_ifs with hzero
  · refine ⟨List.cons_ne_nil _ _, fun d hd => ?_⟩
    rw [List.mem_singleton.mp hd]
    rfl
  · exact ⟨hzero, fun d hd => h d ((List.rdropWhile_prefix _ _).subset hd)⟩

theorem length_trimZeros_le {digits : List Char} (h : digits ≠ []) :
    (trimZeros digits).length ≤ digits.length := by
  rw [trimZeros]
  split_ifs with hzero
  · exact List.length_pos_iff.mpr h
  · exact (List.rdropWhile_prefix _ _).length_le

theorem fraction_trimZeros (n : ℕ) (digits : List Char) :
    (n * 10 ^ (trimZeros digits).length + Nat.ofDigitChars 10 (trimZeros digits) 0 : ℚ) /
        10 ^ (trimZeros digits).length =
      (n * 10 ^ digits.length + Nat.ofDigitChars 10 digits 0) / 10 ^ digits.length := by
  obtain ⟨k, hk⟩ : ∃ k, digits.rtakeWhile (· = '0') = List.replicate k '0' :=
    ⟨_, List.eq_replicate_of_mem fun d hd => by simpa using List.mem_rtakeWhile_imp hd⟩
  have hsplit := List.rdropWhile_append_rtakeWhile (p := (· = '0')) (l := digits)
  rw [hk] at hsplit
  have hvalue : Nat.ofDigitChars 10 digits 0 =
      Nat.ofDigitChars 10 (digits.rdropWhile (· = '0')) 0 * 10 ^ k := by
    conv_lhs => rw [← hsplit]
    rw [Nat.ofDigitChars_append, Nat.ofDigitChars_replicate_zero, Nat.mul_comm]
  have hlen : digits.length = (digits.rdropWhile (· = '0')).length + k := by
    conv_lhs => rw [← hsplit]
    rw [List.length_append, List.length_replicate]
  rw [hvalue, hlen, trimZeros]
  split_ifs with hzero
  · have hdigit : Nat.ofDigitChars 10 ['0'] 0 = 0 := rfl
    have hnil : Nat.ofDigitChars 10 [] 0 = 0 := rfl
    rw [hzero, hdigit, hnil]
    push_cast
    field_simp
    ring
  · push_cast
    rw [pow_add]
    field_simp

theorem length_shortest_le {places k m : ℕ} {q : ℚ} (hplaces : 0 < places) (hk : 0 < k)
    (hq : |q| ≤ m) (hm : m < 10 ^ k) : (shortest places q).length ≤ k + places + 2 := by
  have hfixed := length_fixed_le hplaces hk hq hm
  have htrim := length_trimZeros_le (digits_leftpad places (units places q % 10 ^ places)).1
  rw [fixed, List.length_append, List.length_cons] at hfixed
  rw [shortest, List.length_append, List.length_cons]
  omega

/-- The shortest numeral is read as the rounding, too. -/
theorem value_shortest {places : ℕ} (hplaces : 0 < places) (q : ℚ) :
    value (shortest places q) = some (round places q) := by
  have hpos : 0 < 10 ^ places := Nat.pow_pos (by decide)
  have hdigits := (digits_leftpad places (units places q % 10 ^ places)).2
  have hlen := length_digits_leftpad hplaces (Nat.mod_lt (units places q) hpos)
  have hunits : units places q / 10 ^ places * 10 ^ places + units places q % 10 ^ places =
      units places q := Nat.div_add_mod' _ _
  obtain ⟨hne, htrim⟩ := trimZeros_digits hdigits
  have hfraction := fraction_trimZeros (units places q / 10 ^ places)
    ((Nat.toDigits 10 (units places q % 10 ^ places)).leftpad places '0')
  rw [hlen, ofDigitChars_leftpad] at hfraction
  rw [shortest, value_point _ _ hne htrim, round_eq_units]
  push_cast at hfraction ⊢
  rw [hfraction]
  have hcast : ((units places q / 10 ^ places : ℕ) * 10 ^ places +
      (units places q % 10 ^ places : ℕ) : ℚ) = units places q := by exact_mod_cast hunits
  rw [hcast]
  simp only [decide_eq_true_eq]

end Decimal
end SnipeIt.Support
