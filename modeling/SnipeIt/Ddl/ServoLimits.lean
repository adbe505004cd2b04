import SnipeIt.Ddl.Servo

/-! # The limits of the servo angles

Targets are checked when they are set. The first position of the scan and the
steps of the scan are not, so that pairs outside the limits get written.
-/

namespace SnipeIt.Ddl
open ActiveObject Support

/-- `eFSM_EVENT_INIT` is dispatched and everything gets initialised. -/
def ServoAct.Starts : ServoAct → Prop
  | .init answers _ => answers.Ok
  | _ => False

namespace Servo

variable {s t : Servo} {a : ServoAct} {acts : List ServoAct} {hor ver : ServoChannel}

/-- Where the machine is before it has been initialised, and where it stays if that fails. -/
def Down (s : Servo) : Prop := s.state = .init ∨ s.state = .error

@[simp] theorem scanOperation_passed : s.scanOperation.passed = s.passed := by
  unfold scanOperation
  split_ifs <;> rfl

theorem scanOn_passed (s : Servo) (bus : I2c) :
    (s.scanOn bus).passed = s.passed ++ [s.scanOperation.scan] := by
  unfold scanOn
  split_ifs
  · simp
  · simp [readBack]

theorem step_passed_extends (h : Step s a t) : s.passed <+: t.passed := by
  cases step_does h with
  | failed | targetRefused | targetSet | keeps | ignores => exact List.prefix_rfl
  | started | entersScan | entersNoiseScan | entersTargetLock | follows =>
    exact List.prefix_append _ _
  | scansOn =>
    rw [scanOn_passed]
    exact List.prefix_append _ _

theorem Down.step (hs : s.Down) (ha : ¬ a.Starts) (h : Step s a t) :
    t.Down ∧ t.passed = s.passed := by
  cases step_does h with
  | failed => exact ⟨.inr rfl, rfl⟩
  | started _ hok => exact absurd hok ha
  | targetRefused | targetSet | ignores => exact ⟨hs, rfl⟩
  | entersScan hentry =>
    rcases hs with hs | hs <;> simp [hs] at hentry
  | scansOn hstate | entersNoiseScan hstate | entersTargetLock hstate | follows hstate
  | keeps hstate => rcases hs with hs | hs <;> simp [hs] at hstate

/-- The angles that the machine starts with lie below the horizontal minimum. -/
theorem starts_outside (ha : a.Starts) (h : Step s a t) :
    (⟨0, 90⟩ : ServoAngles) ∈ t.passed := by
  cases step_does h with
  | failed _ hok => exact absurd ha hok
  | started => simp [enterIdle, initAngles, setAngles]
  | targetRefused | targetSet | entersScan | scansOn | entersNoiseScan | entersTargetLock
  | follows | keeps | ignores => cases ha

theorem first_angles_outside : ¬ (⟨0, 90⟩ : ServoAngles).InLimits := by decide +kernel

theorem run_passed (h : Run Step (created hor ver) acts t) :
    ((∀ a ∈ acts, ¬ a.Starts) → t.Down ∧ t.passed = []) ∧
      ((∃ a ∈ acts, a.Starts) → (⟨0, 90⟩ : ServoAngles) ∈ t.passed) := by
  induction h with
  | nil => exact ⟨fun _ => ⟨.inl rfl, rfl⟩, by simp⟩
  | @snoc acts s a t _ hs ih =>
    constructor
    · intro hnone
      obtain ⟨hdown, hempty⟩ := ih.1 fun b hb => hnone b (by simp [hb])
      obtain ⟨hdown', hpassed⟩ := hdown.step (hnone a (by simp)) hs
      exact ⟨hdown', hpassed.trans hempty⟩
    · rintro ⟨b, hb, hstarts⟩
      rcases List.mem_append.mp hb with hb | hb
      · exact (step_passed_extends hs).subset (ih.2 ⟨b, hb, hstarts⟩)
      · rw [List.mem_singleton.mp hb] at hstarts
        exact starts_outside hstarts hs

/-- All angles that are passed to the servos are in the limits exactly in the runs in which the
machine is never initialised. -/
theorem passed_in_limits_iff (h : Run Step (created hor ver) acts t) :
    (∀ p ∈ t.passed, p.InLimits) ↔ ∀ a ∈ acts, ¬ a.Starts := by
  obtain ⟨hdown, hup⟩ := run_passed h
  constructor
  · intro hall a ha hstarts
    exact first_angles_outside (hall _ (hup ⟨a, ha, hstarts⟩))
  · intro hnone
    simp [(hdown hnone).2]

theorem passed_in_limits_iff_without_timer :
    ∃ t, Run Step (created ⟨0, 0⟩ ⟨0, 0⟩)
        [.init ⟨true, true, false⟩ ⟨true, true, none, none⟩, .setTarget 90 90,
          .dispatch .directions ⟨true, true, none, none⟩] t ∧
      ((∀ p ∈ t.passed, p.InLimits) ↔
        ∀ a ∈ [ServoAct.init ⟨true, true, false⟩ ⟨true, true, none, none⟩, .setTarget 90 90,
          .dispatch .directions ⟨true, true, none, none⟩], ¬ a.Starts) := by
  have hrun : Run Step (created ⟨0, 0⟩ ⟨0, 0⟩)
      [.init ⟨true, true, false⟩ ⟨true, true, none, none⟩, .setTarget 90 90,
        .dispatch .directions ⟨true, true, none, none⟩] _ := Run.of_exec rfl
  exact ⟨_, hrun, passed_in_limits_iff hrun⟩

/-- Everything works, and a noise is at 173 degrees. -/
def noiseOffGrid : List ServoAct :=
  let bus : I2c := ⟨true, true, none, none⟩
  [.init ⟨true, true, true⟩ bus, .dispatch .directions bus, .setTarget 173 60,
    .dispatch .noiseDetected bus, .dispatch .rotationTimeout bus, .dispatch .directions bus]

theorem angles_outside_limits_passed :
    ∃ t, Run Step (created ⟨0, 0⟩ ⟨0, 0⟩) noiseOffGrid t ∧
      (⟨0, 90⟩ : ServoAngles) ∈ t.passed ∧ ¬ (⟨0, 90⟩ : ServoAngles).InLimits ∧
      (⟨178, 60⟩ : ServoAngles) ∈ t.passed ∧ ¬ (⟨178, 60⟩ : ServoAngles).InLimits := by
  have hpassed : (exec apply (created ⟨0, 0⟩ ⟨0, 0⟩) noiseOffGrid).map (·.passed) =
      some [⟨0, 90⟩, ⟨0, 90⟩, ⟨173, 60⟩, ⟨173, 60⟩, ⟨178, 60⟩] := by decide +kernel
  obtain ⟨t, hexec, ht⟩ := Option.map_eq_some_iff.mp hpassed
  refine ⟨t, Run.of_exec hexec, ?_, first_angles_outside, ?_, by decide +kernel⟩
  · simp [ht]
  · simp [ht]

/-! ## Once the scan is inside -/

/-- The scan angles from which the next step of the scan stays in the limits. -/
def ScanFits (s : Servo) : Prop :=
  if s.increase = true ∧ s.scan.hor < servoHorizontalMax then
    (0 ≤ s.scan.hor ∧ s.scan.hor ≤ 170) ∧ servoVerticalMin ≤ s.scan.ver ∧
      s.scan.ver ≤ servoVerticalMax
  else if s.increase = false ∧ servoHorizontalMin < s.scan.hor then
    (10 ≤ s.scan.hor ∧ s.scan.hor ≤ 180) ∧ servoVerticalMin ≤ s.scan.ver ∧
      s.scan.ver ≤ servoVerticalMax
  else if s.scan.ver < servoVerticalMax then
    (servoHorizontalMin ≤ s.scan.hor ∧ s.scan.hor ≤ servoHorizontalMax) ∧
      40 ≤ s.scan.ver ∧ s.scan.ver ≤ 130
  else True

theorem scanOperation_inLimits_iff : s.scanOperation.scan.InLimits ↔ s.ScanFits := by
  unfold scanOperation ScanFits
  split_ifs
  · simp only [ServoAngles.InLimits, servoStepAngle, servoHorizontalMin, servoHorizontalMax]
    constructor <;> rintro ⟨⟨h1, h2⟩, h3⟩ <;> exact ⟨⟨by linarith, by linarith⟩, h3⟩
  · simp only [ServoAngles.InLimits, servoStepAngle, servoHorizontalMin, servoHorizontalMax]
    constructor <;> rintro ⟨⟨h1, h2⟩, h3⟩ <;> exact ⟨⟨by linarith, by linarith⟩, h3⟩
  · simp only [ServoAngles.InLimits, servoStepAngle, servoVerticalMin, servoVerticalMax]
    constructor <;> rintro ⟨h1, h2, h3⟩ <;> exact ⟨h1, by linarith, by linarith⟩
  · have hcorner : (⟨servoHorizontalMin, servoVerticalMin⟩ : ServoAngles).InLimits := by
      decide +kernel
    exact iff_of_true hcorner trivial

/-- The steps whose angles lie in the limits: a scan that is entered or goes on from angles that
allow it. -/
def LimitsFit (s : Servo) : ServoAct → Prop
  | .init answers _ => ¬ answers.Ok
  | .dispatch event _ =>
    match s.state, event with
    | .scan, .directions => s.ScanFits
    | .idle, .directions => s.scan.InLimits
    | .noiseScan, .rotationTimeout => s.scan.InLimits
    | .targetLock, .scan => s.scan.InLimits
    | _, _ => True
  | .setTarget _ _ => True

/-- The pair that the step passes on, if any, lies in the limits. -/
def PassesInLimits (s : Servo) (_ : ServoAct) (t : Servo) : Prop :=
  ∀ p, t.passed = s.passed ++ [p] → p.InLimits

theorem passesInLimits_iff {p : ServoAngles} (hpassed : t.passed = s.passed ++ [p]) :
    PassesInLimits s a t ↔ p.InLimits := by
  unfold PassesInLimits
  rw [hpassed]
  simp

theorem passesInLimits_of_same (hpassed : t.passed = s.passed) : PassesInLimits s a t := by
  intro p hp
  rw [hpassed] at hp
  simp at hp

/-- The target, once there is one, is in the limits. -/
def Targeted (s : Servo) : Prop := s.Down ∨ s.target.angles.InLimits

theorem Targeted.inLimits (hs : s.Targeted) {state : ServoState} (hstate : s.state = state)
    (hup : state ≠ .init ∧ state ≠ .error) : s.target.angles.InLimits := by
  rcases hs with (hdown | hdown) | hs
  · exact absurd (hstate.symm.trans hdown) hup.1
  · exact absurd (hstate.symm.trans hdown) hup.2
  · exact hs

theorem Targeted.step (hs : s.Targeted) (h : Step s a t) :
    (s.LimitsFit a → t.Targeted) ∧ (PassesInLimits s a t ↔ s.LimitsFit a) := by
  cases step_does h with
  | failed _ hok =>
    exact ⟨fun _ => .inl (.inr rfl), iff_of_true (passesInLimits_of_same rfl) hok⟩
  | started _ hok =>
    refine ⟨fun hfit => absurd hok hfit, ?_⟩
    rw [passesInLimits_iff rfl]
    exact iff_of_false first_angles_outside (not_not_intro hok)
  | targetRefused => exact ⟨fun _ => hs, iff_of_true (passesInLimits_of_same rfl) trivial⟩
  | targetSet hlimits =>
    exact ⟨fun _ => .inr hlimits, iff_of_true (passesInLimits_of_same rfl) trivial⟩
  | @entersScan event bus hentry =>
    rcases hentry with ⟨hstate, rfl⟩ | ⟨hstate, rfl⟩ | ⟨hstate, rfl⟩
    all_goals
      refine ⟨fun _ => .inr (hs.inLimits hstate (by simp)), ?_⟩
      rw [passesInLimits_iff rfl]
      simp [LimitsFit, hstate]
  | @scansOn bus hstate =>
    have htarget := hs.inLimits hstate (by simp)
    refine ⟨fun _ => .inr (scanOn_target.symm ▸ htarget), ?_⟩
    rw [passesInLimits_iff (s.scanOn_passed bus), scanOperation_inLimits_iff]
    simp [LimitsFit, hstate]
  | entersNoiseScan hstate | entersTargetLock hstate | follows hstate =>
    have htarget := hs.inLimits hstate (by simp)
    refine ⟨fun _ => .inr htarget, iff_of_true ((passesInLimits_iff rfl).mpr htarget) ?_⟩
    simp [LimitsFit, hstate]
  | keeps hstate =>
    exact ⟨fun _ => hs, iff_of_true (passesInLimits_of_same rfl) (by simp [LimitsFit, hstate])⟩
  | ignores _ hother =>
    refine ⟨fun _ => hs, iff_of_true (passesInLimits_of_same rfl) ?_⟩
    simp only [LimitsFit]
    split <;> simp_all [handles]

/-- From any state whose target is in the limits, the pairs passed on stay there exactly as long
as the scan goes on from angles that allow it. -/
theorem limits_kept_iff (hs : s.Targeted) :
    Run (Meeting PassesInLimits Step) s acts t ↔ Run (Guarded LimitsFit Step) s acts t :=
  Run.meeting_iff_guarded hs
    (fun _ _ _ hs hst hfit => ⟨(hs.step hst).1 hfit, (hs.step hst).2.mpr hfit⟩)
    (fun _ _ _ hs hst hfit hpass => hfit ((hs.step hst).2.mp hpass))

end Servo

end SnipeIt.Ddl
