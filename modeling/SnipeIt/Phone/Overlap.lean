import Mathlib.Algebra.Order.Field.Basic
import Mathlib.Algebra.Order.Field.Rat
import Mathlib.Tactic.Linarith
import Mathlib.Tactic.NormNum
import SnipeIt.Phone.Tracker

/-! # The overlap of two boxes

`computeIoU` adds corners and multiplies sides in 32 bits. Its value depends on the
exact areas only through what is left of them modulo 2^32, which decides when it is
a proper measure of overlap.
-/

namespace SnipeIt.Phone
open KotlinFloat

def wrap (n : ℤ) : ℤ := n.bmod (2 ^ 32)

theorem ofInt_wrap (n : ℤ) : (Int32.ofInt n).toInt = wrap n := Int32.toInt_ofInt

/-- The quotients of converted numbers, in `Float` as well as without rounding. -/
class IntRatio (F : Type*) [KotlinFloat F] : Prop where
  toFloat_mono : ∀ i j : Int32, i ≤ j → (toFloat i : F) ≤ toFloat j
  zero_le_zero : (0.0 : F) ≤ 0.0
  zero_le_one : (0.0 : F) ≤ 1.0
  not_one_le_zero : ¬ (1.0 : F) ≤ 0.0
  ratio_nonneg_iff : ∀ i u : Int32, 0 < u → ((0.0 : F) ≤ toFloat i / toFloat u ↔ 0 ≤ i)
  ratio_le_one_iff : ∀ i u : Int32, 0 < u →
    (toFloat i / toFloat u ≤ (1.0 : F) ↔ (toFloat i : F) ≤ toFloat u)
  ratio_self : ∀ u : Int32, 0 < u → toFloat u / toFloat u = (1.0 : F)

instance : IntRatio ℚ where
  toFloat_mono i j hij := Int.cast_le.mpr (Int32.le_iff_toInt_le.mp hij)
  zero_le_zero := le_refl _
  zero_le_one := by norm_num
  not_one_le_zero := by norm_num
  ratio_nonneg_iff i u hu := by
    have hpos : (0 : ℚ) < u.toInt := Int.cast_pos.mpr (Int32.lt_iff_toInt_lt.mp hu)
    have hzero : (0.0 : ℚ) = 0 := by norm_num
    rw [hzero, Int32.le_iff_toInt_le]
    change 0 ≤ (i.toInt : ℚ) / u.toInt ↔ _
    rw [le_div_iff₀ hpos, zero_mul, Int.cast_nonneg_iff]
    rfl
  ratio_le_one_iff i u hu := by
    have hpos : (0 : ℚ) < u.toInt := Int.cast_pos.mpr (Int32.lt_iff_toInt_lt.mp hu)
    have hone : (1.0 : ℚ) = 1 := by norm_num
    rw [hone]
    change (i.toInt : ℚ) / u.toInt ≤ 1 ↔ (i.toInt : ℚ) ≤ u.toInt
    rw [div_le_one hpos]
  ratio_self u hu := by
    have hpos : (0 : ℚ) < u.toInt := Int.cast_pos.mpr (Int32.lt_iff_toInt_lt.mp hu)
    have hone : (1.0 : ℚ) = 1 := by norm_num
    rw [hone]
    exact div_self hpos.ne'

/-! ## Areas -/

/-- The side of the overlap of two intervals that begin at `p` and `q`, their ends in 32 bits. -/
def overlapSide (p l q m : ℤ) : ℤ :=
  max 0 (wrap (min (wrap (p + l)) (wrap (q + m)) - max p q))

def overlapArea (a b : BoundingBox) : ℤ :=
  overlapSide a.x.toInt a.width.toInt b.x.toInt b.width.toInt *
    overlapSide a.y.toInt a.height.toInt b.y.toInt b.height.toInt

def BoundingBox.area (b : BoundingBox) : ℤ := b.width.toInt * b.height.toInt

/-- The areas of both boxes with what they share counted once. -/
def unionArea (a b : BoundingBox) : ℤ := a.area + b.area - overlapArea a b

theorem overlapSide_comm (p l q m : ℤ) : overlapSide p l q m = overlapSide q m p l := by
  rw [overlapSide, overlapSide, min_comm, max_comm p q]

theorem overlapArea_comm (a b : BoundingBox) : overlapArea a b = overlapArea b a := by
  rw [overlapArea, overlapArea, overlapSide_comm, overlapSide_comm a.y.toInt]

theorem unionArea_comm (a b : BoundingBox) : unionArea a b = unionArea b a := by
  rw [unionArea, unionArea, overlapArea_comm, add_comm a.area]

theorem toInt_max (i j : Int32) : (max i j).toInt = max i.toInt j.toInt := by
  change (if i ≤ j then j else i).toInt = max i.toInt j.toInt
  by_cases hij : i ≤ j
  · rw [if_pos hij, max_eq_right (Int32.le_iff_toInt_le.mp hij)]
  · rw [if_neg hij, max_eq_left (by rw [Int32.le_iff_toInt_le] at hij; omega)]

theorem toInt_min (i j : Int32) : (min i j).toInt = min i.toInt j.toInt := by
  change (if i ≤ j then i else j).toInt = min i.toInt j.toInt
  by_cases hij : i ≤ j
  · rw [if_pos hij, min_eq_left (Int32.le_iff_toInt_le.mp hij)]
  · rw [if_neg hij, min_eq_right (by rw [Int32.le_iff_toInt_le] at hij; omega)]

/-- One side of the intersection, as the code computes it. -/
theorem toInt_side (p l q m : Int32) :
    (max 0 (min (p + l) (q + m) - max p q)).toInt =
      overlapSide p.toInt l.toInt q.toInt m.toInt := by
  rw [toInt_max, Int32.toInt_sub, toInt_min, toInt_max, Int32.toInt_add, Int32.toInt_add]
  rfl

section

variable {F : Type*} [KotlinFloat F]

theorem computeIoU_eq (a b : BoundingBox) : (computeIoU a b : F) =
    if 0 < wrap (unionArea a b) then
      toFloat (Int32.ofInt (overlapArea a b)) / toFloat (Int32.ofInt (unionArea a b))
    else 0.0 := by
  have hinter : max 0 (min (a.x + a.width) (b.x + b.width) - max a.x b.x) *
      max 0 (min (a.y + a.height) (b.y + b.height) - max a.y b.y) =
        Int32.ofInt (overlapArea a b) := by
    refine Int32.toInt_inj.mp ?_
    rw [Int32.toInt_mul, toInt_side, toInt_side, ofInt_wrap]
    rfl
  have hunion : a.width * a.height + b.width * b.height - Int32.ofInt (overlapArea a b) =
      Int32.ofInt (unionArea a b) := by
    rw [unionArea, Int32.ofInt_sub, Int32.ofInt_add, BoundingBox.area, BoundingBox.area,
      Int32.ofInt_mul, Int32.ofInt_mul]
    simp only [Int32.ofInt_toInt]
  have hpos : 0 < Int32.ofInt (unionArea a b) ↔ 0 < wrap (unionArea a b) := by
    rw [Int32.lt_iff_toInt_lt, ofInt_wrap]
    rfl
  rw [computeIoU]
  simp only [hinter, hunion, hpos]

theorem computeIoU_comm (a b : BoundingBox) : (computeIoU a b : F) = computeIoU b a := by
  rw [computeIoU_eq, computeIoU_eq, overlapArea_comm, unionArea_comm]

/-! ## When the value is a measure -/

/-- The union is nothing in 32 bits, or the shared area is no negative number in 32 bits and as a
`Float` no more than the union. -/
def Fits (F : Type*) [KotlinFloat F] (a b : BoundingBox) : Prop :=
  wrap (unionArea a b) ≤ 0 ∨ 0 ≤ wrap (overlapArea a b) ∧
    (toFloat (Int32.ofInt (overlapArea a b)) : F) ≤ toFloat (Int32.ofInt (unionArea a b))

theorem range_iff [IntRatio F] (a b : BoundingBox) :
    ((0.0 : F) ≤ computeIoU a b ∧ computeIoU a b ≤ (1.0 : F)) ↔ Fits F a b := by
  rw [computeIoU_eq, Fits]
  by_cases hu : 0 < wrap (unionArea a b)
  · have hpos : 0 < Int32.ofInt (unionArea a b) := by
      rw [Int32.lt_iff_toInt_lt, ofInt_wrap]
      exact hu
    have hnonneg : 0 ≤ Int32.ofInt (overlapArea a b) ↔ 0 ≤ wrap (overlapArea a b) := by
      rw [Int32.le_iff_toInt_le, ofInt_wrap]
      rfl
    rw [if_pos hu, IntRatio.ratio_nonneg_iff _ _ hpos, IntRatio.ratio_le_one_iff _ _ hpos, hnonneg,
      or_iff_right (Int.not_le.mpr hu)]
  · rw [if_neg hu, or_iff_left_of_imp fun _ => Int.not_lt.mp hu]
    simp only [IntRatio.zero_le_zero, IntRatio.zero_le_one, Int.not_lt.mp hu, and_self]

theorem overlapSide_self {l : Int32} (p : Int32) (hl : 0 < l) :
    overlapSide p.toInt l.toInt p.toInt l.toInt = l.toInt := by
  have hpos : 0 < l.toInt := Int32.lt_iff_toInt_lt.mp hl
  have hwrap : wrap l.toInt = l.toInt := Int32.toInt_bmod l
  rw [overlapSide, min_self, max_self, wrap, wrap, Int.bmod_sub_bmod, add_sub_cancel_left]
  exact (congrArg (max 0) hwrap).trans (max_eq_right hpos.le)

theorem overlapArea_self {a : BoundingBox} (hw : 0 < a.width) (hh : 0 < a.height) :
    overlapArea a a = a.area ∧ unionArea a a = a.area := by
  have hoverlap : overlapArea a a = a.area := by
    rw [overlapArea, overlapSide_self _ hw, overlapSide_self _ hh, BoundingBox.area]
  exact ⟨hoverlap, by rw [unionArea, hoverlap, add_sub_cancel_right]⟩

theorem self_iff [IntRatio F] {a : BoundingBox} (hw : 0 < a.width) (hh : 0 < a.height) :
    (computeIoU a a : F) = 1.0 ↔ 0 < wrap a.area := by
  obtain ⟨hoverlap, hunion⟩ := overlapArea_self hw hh
  rw [computeIoU_eq, hoverlap, hunion]
  by_cases ha : 0 < wrap a.area
  · have hpos : 0 < Int32.ofInt a.area := by
      rw [Int32.lt_iff_toInt_lt, ofInt_wrap]
      exact ha
    rw [if_pos ha, IntRatio.ratio_self _ hpos]
    exact iff_of_true rfl ha
  · rw [if_neg ha]
    refine iff_of_false (fun heq => IntRatio.not_one_le_zero (F := F) ?_) ha
    rw [← heq]
    exact IntRatio.zero_le_zero

/-- The value is in the unit interval and symmetric, and 1 for a box with itself. -/
def ProperOverlap (F : Type*) [KotlinFloat F] (a b : BoundingBox) : Prop :=
  ((0.0 : F) ≤ computeIoU a b ∧ computeIoU a b ≤ (1.0 : F)) ∧
    (computeIoU a b : F) = computeIoU b a ∧
    (a = b → 0 < a.width → 0 < a.height → computeIoU a b = (1.0 : F))

theorem properOverlap_iff [IntRatio F] (a b : BoundingBox) : ProperOverlap F a b ↔
    Fits F a b ∧ (a = b → 0 < a.width → 0 < a.height → 0 < wrap a.area) := by
  rw [ProperOverlap, range_iff, and_iff_right (computeIoU_comm a b)]
  refine and_congr_right fun _ => ?_
  constructor
  · rintro hself rfl hw hh
    exact (self_iff hw hh).mp (hself rfl hw hh)
  · rintro harea rfl hw hh
    exact (self_iff hw hh).mpr (harea rfl hw hh)

end

/-! ## Boxes without overflow -/

def BoundingBox.right (b : BoundingBox) : ℤ := b.x.toInt + b.width.toInt

def BoundingBox.bottom (b : BoundingBox) : ℤ := b.y.toInt + b.height.toInt

/-- The corner and the area of a box are numbers of 32 bits. -/
structure BoundingBox.Exact (b : BoundingBox) : Prop where
  right : -2 ^ 31 ≤ b.right ∧ b.right < 2 ^ 31
  bottom : -2 ^ 31 ≤ b.bottom ∧ b.bottom < 2 ^ 31
  area : -2 ^ 31 ≤ b.area ∧ b.area < 2 ^ 31

/-- So are the distances between the boxes and the sum of their areas. -/
structure ExactPair (a b : BoundingBox) : Prop where
  left : a.Exact
  right : b.Exact
  horizontal : -2 ^ 31 ≤ min a.right b.right - max a.x.toInt b.x.toInt
  vertical : -2 ^ 31 ≤ min a.bottom b.bottom - max a.y.toInt b.y.toInt
  areas : -2 ^ 31 ≤ a.area + b.area ∧ a.area + b.area < 2 ^ 31

theorem wrap_eq {n : ℤ} (hlo : -2 ^ 31 ≤ n) (hhi : n < 2 ^ 31) : wrap n = n :=
  Int.bmod_eq_of_le (by omega) (by omega)

/-- Without overflow the side of the overlap is in both sides, unless there is none. -/
theorem overlapSide_le {p l q m : ℤ} (hl : l < 2 ^ 31) (hpl : -2 ^ 31 ≤ p + l ∧ p + l < 2 ^ 31)
    (hqm : -2 ^ 31 ≤ q + m ∧ q + m < 2 ^ 31) (hside : -2 ^ 31 ≤ min (p + l) (q + m) - max p q) :
    overlapSide p l q m = 0 ∨
      0 < overlapSide p l q m ∧ overlapSide p l q m ≤ l ∧ overlapSide p l q m ≤ m := by
  have hmin := min_le_left (p + l) (q + m)
  have hmin' := min_le_right (p + l) (q + m)
  have hmax := le_max_left p q
  have hmax' := le_max_right p q
  rw [overlapSide, wrap_eq hpl.1 hpl.2, wrap_eq hqm.1 hqm.2, wrap_eq hside (by omega)]
  omega

theorem ExactPair.overlapArea_le {a b : BoundingBox} (h : ExactPair a b) :
    overlapArea a b = 0 ∨
      0 < overlapArea a b ∧ overlapArea a b ≤ a.area ∧ overlapArea a b ≤ b.area := by
  rcases overlapSide_le a.width.toInt_lt h.left.right h.right.right h.horizontal with
    hzero | ⟨hx, hxa, hxb⟩
  · exact .inl (by rw [overlapArea, hzero, zero_mul])
  rcases overlapSide_le a.height.toInt_lt h.left.bottom h.right.bottom h.vertical with
    hzero | ⟨hy, hya, hyb⟩
  · exact .inl (by rw [overlapArea, hzero, mul_zero])
  exact .inr ⟨mul_pos hx hy, mul_le_mul hxa hya hy.le (hx.le.trans hxa),
    mul_le_mul hxb hyb hy.le (hx.le.trans hxb)⟩

variable {F : Type*} [KotlinFloat F]

theorem ExactPair.fits [IntRatio F] {a b : BoundingBox} (h : ExactPair a b) : Fits F a b := by
  obtain ⟨hsumlo, hsumhi⟩ := h.areas
  have hunion : unionArea a b = a.area + b.area - overlapArea a b := rfl
  have hleft := h.left.area
  have hright := h.right.area
  have hle : 0 ≤ overlapArea a b ∧ -2 ^ 31 ≤ unionArea a b ∧
      (0 < unionArea a b → overlapArea a b ≤ unionArea a b) := by
    rcases h.overlapArea_le with hzero | ⟨hpos, hlea, hleb⟩ <;> omega
  have hwrap : wrap (unionArea a b) = unionArea a b := wrap_eq hle.2.1 (by omega)
  rcases Int.lt_or_le 0 (unionArea a b) with hpos | hneg
  · have hinter : wrap (overlapArea a b) = overlapArea a b := by
      have := hle.2.2 hpos
      exact wrap_eq (by omega) (by omega)
    refine .inr ⟨by rw [hinter]; exact hle.1,
      IntRatio.toFloat_mono _ _ (Int32.le_iff_toInt_le.mpr ?_)⟩
    rw [ofInt_wrap, ofInt_wrap, hinter, hwrap]
    exact hle.2.2 hpos
  · exact .inl (by rwa [hwrap])

/-- The overlap is a proper measure for boxes without overflow, whatever their signs. For a box with
itself corners may overflow, and it is one exactly when the area is positive in 32 bits. -/
theorem properOverlap_of_exact [IntRatio F] :
    (∀ a b : BoundingBox, ExactPair a b → ProperOverlap F a b) ∧
      ∀ a : BoundingBox, 0 < a.width → 0 < a.height →
        (ProperOverlap F a a ↔ 0 < wrap a.area) := by
  constructor
  · intro a b h
    refine (properOverlap_iff a b).mpr ⟨h.fits, ?_⟩
    rintro rfl hw hh
    have harea : 0 < a.area :=
      mul_pos (Int32.lt_iff_toInt_lt.mp hw) (Int32.lt_iff_toInt_lt.mp hh)
    rwa [wrap_eq h.left.area.1 h.left.area.2]
  · intro a hw hh
    obtain ⟨hoverlap, hunion⟩ := overlapArea_self hw hh
    refine (properOverlap_iff a a).trans ⟨fun h => h.2 rfl hw hh, fun harea => ⟨.inr ?_, ?_⟩⟩
    · rw [hoverlap, hunion]
      exact ⟨harea.le, IntRatio.toFloat_mono _ _ (Int32.le_refl _)⟩
    · exact fun _ _ _ => harea

/-- Two boxes that reach over the edges, one of them with a negative width, and a box whose right
corner overflows. -/
theorem properOverlap_edges :
    ProperOverlap ℚ ⟨-50, 20, 300, 400⟩ ⟨100, -10, 200, 90⟩ ∧
      ProperOverlap ℚ ⟨-50, 20, -300, 400⟩ ⟨100, -10, 200, 90⟩ ∧
      ProperOverlap ℚ ⟨2147483600, 20, 300, 400⟩ ⟨2147483600, 20, 300, 400⟩ := by
  refine ⟨properOverlap_of_exact.1 _ _ ?_, properOverlap_of_exact.1 _ _ ?_,
    (properOverlap_of_exact.2 _ (by decide) (by decide)).mpr (by decide)⟩
  · exact ⟨⟨by decide, by decide, by decide⟩, ⟨by decide, by decide, by decide⟩, by decide,
      by decide, by decide⟩
  · exact ⟨⟨by decide, by decide, by decide⟩, ⟨by decide, by decide, by decide⟩, by decide,
      by decide, by decide⟩

theorem improper_overlaps : ¬ ProperOverlap ℚ ⟨0, 0, 65536, 65536⟩ ⟨0, 0, 65536, 65536⟩ ∧
    ¬ ProperOverlap ℚ ⟨0, 0, 70000, 70000⟩ ⟨0, 0, 40000, 40000⟩ := by
  constructor
  · exact fun h => absurd (h.2.2 rfl (by decide) (by decide)) (by decide +kernel)
  · exact fun h => absurd h.1.2 (by decide +kernel)

end SnipeIt.Phone
