import Mathlib.Data.Set.Card
import Mathlib.Tactic.NormNum
import SnipeIt.Ddl.ServoLimits
import SnipeIt.Support.Serpentine

/-! # The serpentine scan

Wherever the scan starts, it comes to the first point of the grid, and then goes
over the grid again and again.
-/

namespace SnipeIt.Ddl
open ActiveObject Support

/-- The points `SERVO_STEP_ANGLE` apart, between the limits of both angles. -/
def scanGrid : Set ServoAngles :=
  {a | a.InLimits ∧ ∃ i j : ℕ,
    a = ⟨servoHorizontalMin + servoStepAngle * i, servoVerticalMin + servoStepAngle * j⟩}

/-- The angles that the servos can be at. -/
def ServoAngles.InRange (a : ServoAngles) : Prop :=
  (servoMinAngle ≤ a.hor ∧ a.hor ≤ servoMaxAngle) ∧ servoMinAngle ≤ a.ver ∧ a.ver ≤ servoMaxAngle

instance (a : ServoAngles) : Decidable a.InRange :=
  inferInstanceAs (Decidable ((_ ∧ _) ∧ _ ∧ _))

theorem start_inRange : (⟨0, 90⟩ : ServoAngles).InRange := by decide +kernel

theorem servoStepAngle_pos : 0 < servoStepAngle := by norm_num [servoStepAngle]

def servoSweep : Sweep ℚ where
  left := servoHorizontalMin
  bottom := servoVerticalMin
  step := servoStepAngle
  cols := 34
  rows := 18
  step_pos := servoStepAngle_pos

theorem servoSweep_right : servoSweep.right = servoHorizontalMax := by
  norm_num [Sweep.right, servoSweep, servoHorizontalMin, servoHorizontalMax, servoStepAngle]

theorem servoSweep_top : servoSweep.top = servoVerticalMax := by
  norm_num [Sweep.top, servoSweep, servoVerticalMin, servoVerticalMax, servoStepAngle]

namespace Servo

variable {s : Servo}

def head (s : Servo) : Head ℚ := ⟨s.scan.hor, s.scan.ver, s.increase⟩

/-- The scan is at the first point of the grid and goes to the right. -/
def AtCorner (s : Servo) : Prop :=
  s.scan = ⟨servoHorizontalMin, servoVerticalMin⟩ ∧ s.increase = true

theorem scanOperation_head (s : Servo) : s.scanOperation.head = servoSweep.next s.head := by
  rw [scanOperation, Sweep.next, servoSweep_right, servoSweep_top]
  by_cases hright : s.increase = true ∧ s.scan.hor < servoHorizontalMax
  · have hright' : s.head.rising = true ∧ s.head.x < servoHorizontalMax := hright
    rw [if_pos hright, if_pos hright']
    rfl
  · have hright' : ¬ (s.head.rising = true ∧ s.head.x < servoHorizontalMax) := hright
    rw [if_neg hright, if_neg hright']
    by_cases hleft : s.increase = false ∧ servoHorizontalMin < s.scan.hor
    · have hleft' : s.head.rising = false ∧ servoSweep.left < s.head.x := hleft
      rw [if_pos hleft, if_pos hleft']
      rfl
    · have hleft' : ¬ (s.head.rising = false ∧ servoSweep.left < s.head.x) := hleft
      rw [if_neg hleft, if_neg hleft']
      by_cases htop : s.scan.ver < servoVerticalMax
      · have htop' : s.head.y < servoVerticalMax := htop
        rw [if_pos htop, if_pos htop']
        rfl
      · have htop' : ¬ s.head.y < servoVerticalMax := htop
        rw [if_neg htop, if_neg htop']
        rfl

theorem iterate_head (s : Servo) (n : ℕ) :
    (scanOperation^[n] s).head = servoSweep.next^[n] s.head := by
  induction n with
  | zero => rfl
  | succ n ih =>
    rw [Function.iterate_succ_apply', Function.iterate_succ_apply', scanOperation_head, ih]

theorem atCorner_iff : s.AtCorner ↔ s.head = servoSweep.corner := by
  rw [AtCorner, head, Sweep.corner, Head.mk.injEq, ← and_assoc]
  apply and_congr_left
  intro _
  rw [← ServoAngles.mk.injEq]
  rfl

/-- The scan starts near the columns, and not far below the rows. -/
theorem near_head (h : s.scan.InRange) :
    servoSweep.Near s.head ∧ servoSweep.stepsLeft s.head + 1 ≤ 1008 := by
  obtain ⟨⟨hleft, hright⟩, hbottom, -⟩ := h
  rw [servoMinAngle] at hleft hbottom
  rw [servoMaxAngle] at hright
  have hnear : servoSweep.Near s.head := by
    rw [Sweep.Near, servoSweep_right]
    dsimp only [head, servoSweep, servoHorizontalMin, servoHorizontalMax, servoStepAngle]
    constructor <;> linarith
  have hrows : servoSweep.rowsLeft s.head ≤ 27 := by
    rw [Sweep.rowsLeft, servoSweep_top, Nat.ceil_le]
    dsimp only [head, servoSweep, servoVerticalMax, servoStepAngle]
    rw [div_le_iff₀ (by norm_num)]
    push_cast
    linarith
  have hcols : servoSweep.colsLeft s.head ≤ 35 := hnear.colsLeft_le
  have hwidth : servoSweep.cols = 34 := rfl
  constructor
  · exact hnear
  · rw [Sweep.stepsLeft, hwidth]
    omega

theorem angles_bijOn :
    Set.BijOn (fun p : ℚ × ℚ => (⟨p.1, p.2⟩ : ServoAngles)) servoSweep.grid scanGrid := by
  constructor
  · rintro p ⟨i, hi, j, hj, rfl⟩
    have hi' : (i : ℚ) ≤ 34 := Nat.cast_le_ofNat.mpr hi
    have hj' : (j : ℚ) ≤ 18 := Nat.cast_le_ofNat.mpr hj
    have hi0 : (0 : ℚ) ≤ i := Nat.cast_nonneg i
    have hj0 : (0 : ℚ) ≤ j := Nat.cast_nonneg j
    refine ⟨?_, i, j, rfl⟩
    dsimp only [ServoAngles.InLimits, servoSweep, servoHorizontalMin, servoHorizontalMax,
      servoVerticalMin, servoVerticalMax, servoStepAngle]
    exact ⟨⟨by linarith, by linarith⟩, by linarith, by linarith⟩
  constructor
  · rintro p - q - heq
    rw [ServoAngles.mk.injEq] at heq
    exact Prod.ext heq.1 heq.2
  · rintro a ⟨⟨⟨-, hright⟩, -, htop⟩, i, j, rfl⟩
    dsimp only [servoHorizontalMin, servoHorizontalMax, servoVerticalMin, servoVerticalMax,
      servoStepAngle] at hright htop
    have hi : i ≤ 34 := by
      have hcast : (i : ℚ) ≤ (34 : ℕ) := by
        push_cast
        linarith
      exact Nat.cast_le.mp hcast
    have hj : j ≤ 18 := by
      have hcast : (j : ℚ) ≤ (18 : ℕ) := by
        push_cast
        linarith
      exact Nat.cast_le.mp hcast
    exact ⟨_, ⟨i, hi, j, hj, rfl⟩, rfl⟩

theorem scan_bijOn (h : s.AtCorner) (start : ℕ) :
    Set.BijOn (fun k => (scanOperation^[k] s).scan) (Set.Ico start (start + servoSweep.size))
      scanGrid := by
  apply (angles_bijOn.comp (servoSweep.sweep_bijOn start)).congr
  intro k _
  dsimp only [Function.comp_apply]
  rw [← atCorner_iff.mp h, ← iterate_head]
  rfl

theorem ncard_scanGrid : scanGrid.ncard = servoSweep.size := by
  have hbij := scan_bijOn (s := { created ⟨0, 0⟩ ⟨0, 0⟩ with
    scan := ⟨servoHorizontalMin, servoVerticalMin⟩, increase := true }) ⟨rfl, rfl⟩ 0
  rw [← hbij.image_eq, hbij.injOn.ncard_image, Nat.zero_add, ← Finset.coe_Ico,
    Set.ncard_coe_finset, Nat.card_Ico, Nat.sub_zero]

/-- From any angles the scan is at the first point within 1008 operations, and from then on every
block of as many operations as the grid has points goes over each of them once. -/
theorem scan_covers (s : Servo) (h : s.scan.InRange) :
    ∃ n ≤ 1008, (scanOperation^[n] s).AtCorner ∧
      ∀ start, n ≤ start →
        Set.BijOn (fun k => (scanOperation^[k] s).scan) (Set.Ico start (start + scanGrid.ncard))
          scanGrid := by
  obtain ⟨hnear, hbound⟩ := near_head h
  obtain ⟨n, hn, hcorner⟩ := hnear.reaches
  rw [← iterate_head, ← atCorner_iff] at hcorner
  refine ⟨n, hn.trans hbound, hcorner, ?_⟩
  intro start hstart
  obtain ⟨d, rfl⟩ := Nat.exists_eq_add_of_le hstart
  rw [ncard_scanGrid]
  exact bijOn_iterate_add (scan_bijOn hcorner d)

/-- A noise target off the grid, with the scan to the left. -/
theorem scan_covers_noise :
    ∃ n ≤ 1008,
      (scanOperation^[n] { created ⟨0, 0⟩ ⟨0, 0⟩ with scan := ⟨173, 60⟩ }).AtCorner := by
  obtain ⟨n, hn, hcorner, -⟩ :=
    scan_covers { created ⟨0, 0⟩ ⟨0, 0⟩ with scan := ⟨173, 60⟩ } (by decide +kernel)
  exact ⟨n, hn, hcorner⟩

/-! ## The machine in the scan state -/

variable {t : Servo} {a : ServoAct} {acts : List ServoAct} {bus : I2c}

theorem scanOperation_congr (h : s.head = t.head) :
    s.scanOperation.head = t.scanOperation.head := by
  rw [scanOperation_head, scanOperation_head, h]

/-- Where the bus works, the scan state shows the servos the next angles. -/
theorem scanOn_works (hbus : bus.Works) :
    (s.scanOn bus).head = s.scanOperation.head ∧
      (s.scanOn bus).passed = s.passed ++ [s.scanOperation.scan] := by
  rw [scanOn_passed, scanOn, if_pos hbus]
  exact ⟨rfl, rfl⟩

theorem scan_eq_of_head (h : s.head = t.head) : s.scan = t.scan := by
  rw [head, head, Head.mk.injEq] at h
  cases hs : s.scan
  cases ht : t.scan
  rw [hs, ht] at h
  rw [ServoAngles.mk.injEq]
  exact ⟨h.1, h.2.1⟩

/-- Events in the scan state show the servos the angles of one operation after the other. -/
theorem run_directions (h : Run Step s acts t) (hstate : s.state = .scan)
    (hacts : ∀ a ∈ acts, ∃ bus : I2c, bus.Works ∧ a = .dispatch .directions bus) :
    t.state = .scan ∧ t.head = (scanOperation^[acts.length] s).head ∧
      t.passed =
        s.passed ++ (List.range acts.length).map fun k => (scanOperation^[k + 1] s).scan := by
  induction h with
  | nil => exact ⟨hstate, rfl, by simp⟩
  | @snoc acts t a u _ hs ih =>
    obtain ⟨bus, hbus, rfl⟩ := hacts a (by simp)
    obtain ⟨ht, hhead, hpassed⟩ := ih fun a ha => hacts a (List.mem_append_left _ ha)
    have hu : u = t.scanOn bus := by
      simp only [Step, apply, ht, reduceCtorEq, if_false, Option.some.injEq] at hs
      rw [← hs]
      simp only [dispatch, ht]
    obtain ⟨hhead', hpassed'⟩ := scanOn_works (s := t) hbus
    have hnext : t.scanOperation.head = (scanOperation^[acts.length + 1] s).head := by
      rw [Function.iterate_succ_apply']
      exact scanOperation_congr hhead
    rw [hu, List.length_append, List.length_singleton, scanOn_state]
    refine ⟨ht, hhead'.trans hnext, ?_⟩
    rw [hpassed', hpassed, List.range_succ, List.map_append, List.append_assoc,
      scan_eq_of_head hnext]
    rfl

theorem scanOperation_inRange (h : s.scan.InRange) : s.scanOperation.scan.InRange := by
  unfold scanOperation
  simp only [ServoAngles.InRange, servoMinAngle, servoMaxAngle] at h
  obtain ⟨⟨hleft, hright⟩, hbottom, htop⟩ := h
  split_ifs with h1 h2 h3
  · simp only [servoHorizontalMax] at h1
    simp only [ServoAngles.InRange, servoMinAngle, servoMaxAngle, servoStepAngle]
    exact ⟨⟨by linarith, by linarith [h1.2]⟩, hbottom, htop⟩
  · simp only [servoHorizontalMin] at h2
    simp only [ServoAngles.InRange, servoMinAngle, servoMaxAngle, servoStepAngle]
    exact ⟨⟨by linarith [h2.2], by linarith⟩, hbottom, htop⟩
  · simp only [servoVerticalMax] at h3
    simp only [ServoAngles.InRange, servoMinAngle, servoMaxAngle, servoStepAngle]
    exact ⟨⟨hleft, hright⟩, by linarith, by linarith⟩
  · have hcorner : (⟨servoHorizontalMin, servoVerticalMin⟩ : ServoAngles).InRange := by
      decide +kernel
    exact hcorner

theorem countsAngle_inRange (counts : ℕ) :
    servoMinAngle ≤ countsAngle counts ∧ countsAngle counts ≤ servoMaxAngle := by
  have hle : servoMinAngle ≤ servoMaxAngle := by decide +kernel
  unfold countsAngle clampf
  split_ifs with hlow hhigh
  · exact ⟨le_rfl, hle⟩
  · exact ⟨hle, le_rfl⟩
  · exact ⟨not_lt.mp hlow, not_lt.mp hhigh⟩

theorem servoGetAngle_inRange {register : Option ℕ} {angle : ℚ}
    (h : servoMinAngle ≤ angle ∧ angle ≤ servoMaxAngle) :
    servoMinAngle ≤ servoGetAngle register angle ∧
      servoGetAngle register angle ≤ servoMaxAngle := by
  cases register with
  | none => exact h
  | some counts => exact countsAngle_inRange counts

theorem inRange_of_inLimits {p : ServoAngles} (h : p.InLimits) : p.InRange := by
  obtain ⟨⟨hleft, hright⟩, hbottom, htop⟩ := h
  have hmin : servoMinAngle ≤ servoHorizontalMin := by decide +kernel
  have hmax : servoHorizontalMax ≤ servoMaxAngle := by decide +kernel
  have hmin' : servoMinAngle ≤ servoVerticalMin := by decide +kernel
  have hmax' : servoVerticalMax ≤ servoMaxAngle := by decide +kernel
  exact ⟨⟨hmin.trans hleft, hright.trans hmax⟩, hmin'.trans hbottom, htop.trans hmax'⟩

theorem step_inRange (hs : s.scan.InRange ∧ s.target.angles.InRange) (h : Step s a t) :
    t.scan.InRange ∧ t.target.angles.InRange := by
  cases step_does h with
  | failed | targetRefused | entersScan | follows | keeps | ignores | entersTargetLock => exact hs
  | started => exact ⟨start_inRange, start_inRange⟩
  | targetSet hlimits => exact ⟨hs.1, inRange_of_inLimits hlimits⟩
  | entersNoiseScan => exact ⟨hs.2, hs.2⟩
  | @scansOn bus =>
    rw [scanOn_target]
    refine ⟨?_, hs.2⟩
    have hnext := scanOperation_inRange hs.1
    unfold scanOn
    split_ifs
    · exact hnext
    · exact ⟨servoGetAngle_inRange hnext.1, servoGetAngle_inRange hnext.2⟩

theorem run_inRange {hor ver : ServoChannel} (h : Run Step (created hor ver) acts t) :
    t.scan.InRange ∧ t.target.angles.InRange := by
  have hzero : (⟨0, 0⟩ : ServoAngles).InRange := by decide +kernel
  apply h.invariant ⟨hzero, hzero⟩
  intro _ _ _ hs hstep
  exact step_inRange hs hstep

end Servo

end SnipeIt.Ddl
