import SnipeIt.Ddl.Servo

/-! # The angles that the servo frame shows

The frame is updated when both angles of a pair have been written. If the
vertical one fails, the horizontal channel has moved and the frame has not.
-/

namespace SnipeIt.Ddl
open ActiveObject Support

namespace Servo

variable {s t : Servo} {bus : I2c} {event : Event} {p : ServoAngles}

/-- The pair of angles that an event passes to the servos. -/
def pair (s : Servo) (event : Event) : Option ServoAngles :=
  match s.state, event with
  | .idle, .directions => some s.scan
  | .scan, .directions => some s.scanOperation.scan
  | .scan, .noiseDetected => some s.target.angles
  | .scan, .lock => some s.target.angles
  | .noiseScan, .rotationTimeout => some s.scan
  | .targetLock, .directions => if s.lastSeq = s.target.seq then none else some s.target.angles
  | .targetLock, .scan => some s.scan
  | _, _ => none

/-- The frame and the channels after a pair was passed to `servo_set_angle`. -/
structure Writes (s : Servo) (bus : I2c) (p : ServoAngles) (t : Servo) : Prop where
  frame : t.frame = if bus.Works then p else s.frame
  hor : t.hor = servoSetAngle bus.horWrite p.hor s.hor
  ver : t.ver = servoSetAngle (bus.horWrite && bus.verWrite) p.ver s.ver

/-- The frame and the channels are as they were. -/
structure Rests (s t : Servo) : Prop where
  frame : t.frame = s.frame
  hor : t.hor = s.hor
  ver : t.ver = s.ver

theorem setBothAngles_writes (s : Servo) (bus : I2c) (p : ServoAngles) :
    Writes s bus p (s.setBothAngles bus p) := ⟨rfl, rfl, rfl⟩

theorem scanOperation_rests (s : Servo) : Rests s s.scanOperation := by
  unfold scanOperation
  split_ifs <;> exact ⟨rfl, rfl, rfl⟩

theorem scanOn_writes (s : Servo) (bus : I2c) :
    Writes s bus s.scanOperation.scan (s.scanOn bus) := by
  obtain ⟨hframe, hhor, hver⟩ := s.scanOperation_rests
  have hwrites : Writes s bus s.scanOperation.scan
      (s.scanOperation.setBothAngles bus s.scanOperation.scan) := by
    obtain ⟨hframe', hhor', hver'⟩ := s.scanOperation.setBothAngles_writes bus s.scanOperation.scan
    exact ⟨hframe ▸ hframe', hhor ▸ hhor', hver ▸ hver'⟩
  unfold scanOn
  split_ifs
  · exact hwrites
  · exact ⟨hwrites.frame, hwrites.hor, hwrites.ver⟩

theorem dispatch_writes (h : s.pair event = some p) : Writes s bus p (s.dispatch event bus) := by
  unfold pair at h
  split at h
  · rename_i hstate
    cases h
    simp only [dispatch, hstate]
    exact ⟨rfl, rfl, rfl⟩
  · rename_i hstate
    cases h
    simp only [dispatch, hstate]
    exact s.scanOn_writes bus
  · rename_i hstate
    cases h
    simp only [dispatch, hstate]
    exact ⟨rfl, rfl, rfl⟩
  · rename_i hstate
    cases h
    simp only [dispatch, hstate]
    exact ⟨rfl, rfl, rfl⟩
  · rename_i hstate
    cases h
    simp only [dispatch, hstate]
    exact ⟨rfl, rfl, rfl⟩
  · rename_i hstate
    split_ifs at h with hseq
    cases h
    simp only [dispatch, hstate, if_neg hseq]
    exact ⟨rfl, rfl, rfl⟩
  · rename_i hstate
    cases h
    simp only [dispatch, hstate]
    exact ⟨rfl, rfl, rfl⟩
  · cases h

theorem dispatch_rests (h : s.pair event = none) : s.dispatch event bus = s := by
  unfold dispatch
  split <;> simp_all [pair]

/-- The frame shows what the channels were set to. -/
def FrameMatches (s : Servo) : Prop := s.frame = ⟨s.hor.angle, s.ver.angle⟩

/-- If the vertical write of the pair fails after the horizontal one, the horizontal angle is the
one that the frame shows. -/
def WholePair (s : Servo) (bus : I2c) (p : ServoAngles) : Prop :=
  bus.horWrite = true → bus.verWrite = false → p.hor = s.frame.hor

theorem Writes.frameMatches_iff (h : Writes s bus p t) (hs : s.FrameMatches) :
    t.FrameMatches ↔ s.WholePair bus p := by
  obtain ⟨hframe, hhor, hver⟩ := h
  unfold FrameMatches WholePair at *
  cases hhorWrite : bus.horWrite with
  | false => simp [hframe, hhor, hver, I2c.Works, hhorWrite, servoSetAngle, hs]
  | true =>
    cases hverWrite : bus.verWrite with
    | true => simp [hframe, hhor, hver, I2c.Works, hhorWrite, hverWrite, servoSetAngle]
    | false =>
      simp [hframe, hhor, hver, I2c.Works, hhorWrite, hverWrite, servoSetAngle, hs, eq_comm]

end Servo

/-- The machine, with whether its idle state was entered with both angles set. -/
structure ShownServo where
  servo : Servo
  shown : Bool

/-- `eFSM_EVENT_INIT` enters the idle state and both angles get set. -/
def ServoAct.shows : ServoAct → Bool
  | .init answers bus => decide (answers.Ok ∧ bus.Works)
  | _ => false

namespace ShownServo

def created (hor ver : ServoChannel) : ShownServo := ⟨Servo.created hor ver, false⟩

def apply (s : ShownServo) (a : ServoAct) : Option ShownServo :=
  (s.servo.apply a).map fun servo => ⟨servo, s.shown || a.shows⟩

def Step (s : ShownServo) (a : ServoAct) (t : ShownServo) : Prop := s.apply a = some t

/-- From the first successful entry of the idle state on the frame shows the channels. -/
def Truthful (s : ShownServo) : Prop := s.shown = true → s.servo.FrameMatches

/-- Once the frame is shown, no pair of angles is written by half, or if so, it changes nothing
that the frame shows. -/
def FrameFits (s : ShownServo) : ServoAct → Prop
  | .dispatch event bus =>
    s.shown = true → ∀ p ∈ s.servo.pair event, s.servo.WholePair bus p
  | _ => True

structure Showing (s : ShownServo) : Prop where
  truthful : s.Truthful
  up : s.shown = true → s.servo.state ≠ .init

variable {s t : ShownServo} {a : ServoAct} {acts : List ServoAct}

theorem dispatch_ne_init {servo : Servo} (h : servo.state ≠ .init) (event : Event) (bus : I2c) :
    (servo.dispatch event bus).state ≠ .init := by
  rw [servo.dispatch_state event bus]
  unfold ServoState.dispatch
  split <;> simp_all

theorem start_matches {servo : Servo} {answers : ServoInit} {bus : I2c} (hok : answers.Ok)
    (hbus : bus.Works) : (servo.start answers bus).FrameMatches := by
  simp [Servo.start, hok, Servo.enterIdle, Servo.initAngles, Servo.setAngles,
    Servo.FrameMatches, servoSetAngle, hbus, hbus.1, hbus.2]

theorem start_ne_init {servo : Servo} {answers : ServoInit} {bus : I2c} (hok : answers.Ok) :
    (servo.start answers bus).state ≠ .init := by
  simp [Servo.start, hok, Servo.enterIdle, Servo.initAngles, Servo.setAngles]

theorem setTarget_rests (servo : Servo) (hor ver : ℚ) :
    Servo.Rests servo (servo.setTarget hor ver).2 ∧
      (servo.setTarget hor ver).2.state = servo.state := by
  rcases servo.setTarget_accepted_or_refused hor ver with ⟨_, _, _, heq⟩ | ⟨_, heq⟩
  · rw [heq]
    exact ⟨⟨rfl, rfl, rfl⟩, rfl⟩
  · rw [heq]
    exact ⟨⟨rfl, rfl, rfl⟩, rfl⟩

theorem Showing.step (hs : s.Showing) (h : Step s a t) :
    (t.shown = true → t.servo.state ≠ .init) ∧ (t.Truthful ↔ s.FrameFits a) := by
  obtain ⟨servo, hservo, rfl⟩ := Option.map_eq_some_iff.mp h
  cases a with
  | init answers bus =>
    simp only [Servo.apply] at hservo
    split_ifs at hservo with hinit
    cases hservo
    have hshown : s.shown = false := by
      cases hshown : s.shown with
      | false => rfl
      | true => exact absurd hinit (hs.up hshown)
    refine ⟨fun hup => ?_, iff_of_true (fun hup => ?_) trivial⟩
    · have hshows : answers.Ok ∧ bus.Works := by simpa [hshown, ServoAct.shows] using hup
      exact start_ne_init hshows.1
    · have hshows : answers.Ok ∧ bus.Works := by simpa [hshown, ServoAct.shows] using hup
      exact start_matches hshows.1 hshows.2
  | dispatch event bus =>
    simp only [Servo.apply] at hservo
    split_ifs at hservo with hinit
    cases hservo
    refine ⟨fun _ => dispatch_ne_init hinit event bus, ?_⟩
    cases hshown : s.shown with
    | false => simp [Truthful, FrameFits, hshown, ServoAct.shows]
    | true =>
      have hmatches : s.servo.FrameMatches := hs.truthful hshown
      cases hpair : s.servo.pair event with
      | none =>
        simp [Truthful, FrameFits, hshown, hpair, Servo.dispatch_rests hpair, hmatches]
      | some p =>
        simpa [Truthful, FrameFits, hshown, hpair] using
          (Servo.dispatch_writes hpair).frameMatches_iff hmatches
  | setTarget hor ver =>
    cases hservo
    obtain ⟨⟨hframe, hhor, hver⟩, hstate⟩ := setTarget_rests s.servo hor ver
    refine ⟨fun hup => ?_, iff_of_true (fun hup => ?_) trivial⟩
    · rw [hstate]
      exact hs.up (by simpa [ServoAct.shows] using hup)
    · have hmatches : s.servo.FrameMatches := hs.truthful (by simpa [ServoAct.shows] using hup)
      unfold Servo.FrameMatches at *
      rw [hframe, hhor, hver, hmatches]

theorem created_showing (hor ver : ServoChannel) : (created hor ver).Showing where
  truthful := fun h => by cases h
  up := fun h => by cases h

/-- The frame shows the channels all through a run exactly if no pair of angles is ever written by
half with a new horizontal angle. -/
theorem frame_shows_channels_iff {hor ver : ServoChannel} :
    Run (Into Truthful Step) (created hor ver) acts t ↔
      Run (Guarded FrameFits Step) (created hor ver) acts t :=
  Run.into_iff_guarded (created_showing hor ver)
    (fun _ _ _ hs hst hfit =>
      ⟨⟨(hs.step hst).2.mpr hfit, (hs.step hst).1⟩, (hs.step hst).2.mpr hfit⟩)
    (fun _ _ _ hs hst hfit htruthful => hfit ((hs.step hst).2.mp htruthful))

def halfWritten : List ServoAct :=
  [.init ⟨true, true, true⟩ ⟨true, true, none, none⟩,
    .dispatch .directions ⟨true, true, none, none⟩,
    .dispatch .directions ⟨true, false, none, none⟩]

theorem half_written_pair_not_shown :
    ∃ t, Run Step (created ⟨0, 0⟩ ⟨0, 0⟩) halfWritten t ∧ t.shown = true ∧
      t.servo.hor.angle = 5 ∧ t.servo.frame = ⟨0, 90⟩ ∧ ¬ t.Truthful := by
  have hfacts : (exec apply (created ⟨0, 0⟩ ⟨0, 0⟩) halfWritten).map
      (fun t => (t.shown, t.servo.hor.angle, t.servo.frame)) = some (true, 5, ⟨0, 90⟩) := by
    decide +kernel
  obtain ⟨t, hexec, ht⟩ := Option.map_eq_some_iff.mp hfacts
  simp only [Prod.mk.injEq] at ht
  obtain ⟨hshown, hhor, hframe⟩ := ht
  refine ⟨t, Run.of_exec hexec, hshown, hhor, hframe, fun htruthful => ?_⟩
  have hmatches : t.servo.frame = ⟨t.servo.hor.angle, t.servo.ver.angle⟩ := htruthful hshown
  rw [hframe, hhor] at hmatches
  exact absurd (ServoAngles.mk.inj hmatches).1 (by decide +kernel)

end ShownServo

end SnipeIt.Ddl
