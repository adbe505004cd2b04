import Mathlib.Algebra.Order.Floor.Semiring
import Mathlib.Data.Rat.Floor
import SnipeIt.ActiveObject.Machines
import SnipeIt.Status
import SnipeIt.Support.Run

/-! # The servo machine

The states of the servo machine with the angles that they hold, the target that
other threads set, and the two channels of the driver. Angles are rationals.
What the I2C bus answers while an event is handled is an argument.
-/

namespace SnipeIt.Ddl
open ActiveObject Support

structure ServoAngles where
  hor : ℚ
  ver : ℚ
  deriving DecidableEq

/-- The directed angles, with a 32-bit number that changes whenever they are set. -/
structure ServoTarget where
  angles : ServoAngles
  seq : ℕ

/-- A channel of the driver: the angle of its last successful `servo_set_angle`, and the register
that this has left. -/
structure ServoChannel where
  angle : ℚ
  counts : ℕ

/-- What the bus answers to the two writes and the two reads of an event. A read that is successful
returns the content of the register. -/
structure I2c where
  horWrite : Bool
  verWrite : Bool
  horRead : Option ℕ
  verRead : Option ℕ

/-- Both angles get written. -/
def I2c.Works (bus : I2c) : Prop := bus.horWrite = true ∧ bus.verWrite = true

instance (bus : I2c) : Decidable bus.Works := inferInstanceAs (Decidable (_ ∧ _))

def servoStepAngle : ℚ := 5

/-- `SERVO_HORIZONTAL_MIN_ANGLE_DEG`. -/
def servoHorizontalMin : ℚ := 5

/-- `SERVO_HORIZONTAL_MAX_ANGLE_DEG`. -/
def servoHorizontalMax : ℚ := 175

/-- `SERVO_VERTICAL_MIN_ANGLE_DEG`. -/
def servoVerticalMin : ℚ := 45

/-- `SERVO_VERTICAL_MAX_ANGLE_DEG`. -/
def servoVerticalMax : ℚ := 135

/-- `SERVO_MIN_ANGLE_DEG`. -/
def servoMinAngle : ℚ := 0

/-- `SERVO_MAX_ANGLE_DEG`. -/
def servoMaxAngle : ℚ := 180

def servoMinPulseUs : ℚ := 500

def servoMaxPulseUs : ℚ := 2500

def pwmSteps : ℕ := 4096

def pwmFreqHz : ℚ := 50

def clampf (x lo hi : ℚ) : ℚ := if x < lo then lo else if hi < x then hi else x

def countsPerUs : ℚ := pwmSteps / (1000000 / pwmFreqHz)

def pulseUsToCounts (pulseUs : ℚ) : ℕ :=
  ⌊clampf (pulseUs * countsPerUs) 0 (pwmSteps - 1) + 1 / 2⌋₊

def countsToPulseUs (counts : ℕ) : ℚ := counts / countsPerUs

def angleCounts (angle : ℚ) : ℕ :=
  pulseUsToCounts
    (servoMinPulseUs +
      clampf angle servoMinAngle servoMaxAngle / (servoMaxAngle - servoMinAngle) *
        (servoMaxPulseUs - servoMinPulseUs))

/-- The angle that `servo_get_angle` makes of a register, of which 12 bits are used. -/
def countsAngle (counts : ℕ) : ℚ :=
  clampf
    ((countsToPulseUs (counts % pwmSteps) - servoMinPulseUs) /
      (servoMaxPulseUs - servoMinPulseUs) * (servoMaxAngle - servoMinAngle))
    servoMinAngle servoMaxAngle

def servoSetAngle (ok : Bool) (angle : ℚ) (channel : ServoChannel) : ServoChannel :=
  if ok then ⟨angle, angleCounts angle⟩ else channel

def servoGetAngle (register : Option ℕ) (angle : ℚ) : ℚ :=
  match register with
  | some counts => countsAngle counts
  | none => angle

/-! ## The machine -/

/-- `servo_fsm.c` with its static variables, `ServoFrame` and the two channels. The pairs of angles
that were passed to `servo_set_angle` are recorded. -/
structure Servo where
  state : ServoState
  /-- `servo_scan_state_angles`. -/
  scan : ServoAngles
  /-- `angle_direction`, which is increasing. -/
  increase : Bool
  /-- `servo_target_angles`. -/
  target : ServoTarget
  lastSeq : ℕ
  /-- `servo_target_mutex` is not `NULL`. -/
  mutex : Bool
  frame : ServoAngles
  hor : ServoChannel
  ver : ServoChannel
  passed : List ServoAngles

/-- What the initialisation of the driver, the mutex and the timer answer, in this order. -/
structure ServoInit where
  pca : Bool
  mutex : Bool
  timer : Bool

def ServoInit.Ok (answers : ServoInit) : Prop :=
  answers.pca = true ∧ answers.mutex = true ∧ answers.timer = true

instance (answers : ServoInit) : Decidable answers.Ok := inferInstanceAs (Decidable (_ ∧ _))

namespace Servo

/-- The machine before `eFSM_EVENT_INIT`, over whatever the channels hold. -/
def created (hor ver : ServoChannel) : Servo where
  state := .init
  scan := ⟨0, 0⟩
  increase := false
  target := ⟨⟨0, 0⟩, 0⟩
  lastSeq := 0
  mutex := false
  frame := ⟨0, 0⟩
  hor := hor
  ver := ver
  passed := []

/-- The horizontal angle and, if it was written, the vertical one. -/
def setAngles (s : Servo) (bus : I2c) (angles : ServoAngles) : Servo :=
  { s with
    hor := servoSetAngle bus.horWrite angles.hor s.hor
    ver := servoSetAngle (bus.horWrite && bus.verWrite) angles.ver s.ver
    passed := s.passed ++ [angles] }

def setBothAngles (s : Servo) (bus : I2c) (angles : ServoAngles) : Servo :=
  { s.setAngles bus angles with frame := if bus.Works then angles else s.frame }

def scanOperation (s : Servo) : Servo :=
  if s.increase = true ∧ s.scan.hor < servoHorizontalMax then
    { s with scan := { s.scan with hor := s.scan.hor + servoStepAngle } }
  else if s.increase = false ∧ servoHorizontalMin < s.scan.hor then
    { s with scan := { s.scan with hor := s.scan.hor - servoStepAngle } }
  else if s.scan.ver < servoVerticalMax then
    { s with
      scan := { s.scan with ver := s.scan.ver + servoStepAngle }
      increase := !s.increase }
  else { s with scan := ⟨servoHorizontalMin, servoVerticalMin⟩, increase := true }

/-- `servo_init_angles` without its two calls of `servo_set_angle`. -/
def initAngles (s : Servo) : Servo :=
  { s with
    target := ⟨⟨0, 90⟩, 0⟩
    scan := ⟨0, 90⟩
    increase := true }

/-- The entry of the idle state, which shows the scan angles where they could be set. -/
def enterIdle (s : Servo) (bus : I2c) : Servo :=
  let s := { s with state := .idle }.initAngles
  { s.setAngles bus s.scan with frame := if bus.Works then s.scan else s.frame }

/-- `eFSM_EVENT_INIT`. -/
def start (s : Servo) (answers : ServoInit) (bus : I2c) : Servo :=
  let s := { s with mutex := answers.pca && answers.mutex }
  if answers.Ok then s.enterIdle bus else { s with state := .error }

def enterScan (s : Servo) (bus : I2c) : Servo :=
  { s with state := .scan }.setBothAngles bus s.scan

def readBack (s : Servo) (bus : I2c) : Servo :=
  { s with
    scan := ⟨servoGetAngle bus.horRead s.scan.hor, servoGetAngle bus.verRead s.scan.ver⟩ }

/-- `eSERVO_EVENT_DIRECTIONS` in the scan state. -/
def scanOn (s : Servo) (bus : I2c) : Servo :=
  let s := s.scanOperation
  let s' := s.setBothAngles bus s.scan
  if bus.Works then s' else s'.readBack bus

def enterNoiseScan (s : Servo) (bus : I2c) : Servo :=
  { s with state := .noiseScan, scan := s.target.angles }.setBothAngles bus s.target.angles

/-- The target lock state goes to the target and keeps its number. -/
def follow (s : Servo) (bus : I2c) : Servo :=
  { s with lastSeq := s.target.seq }.setBothAngles bus s.target.angles

def enterTargetLock (s : Servo) (bus : I2c) : Servo := { s with state := .targetLock }.follow bus

/-- `util_fsm_send_event`. -/
def dispatch (s : Servo) (event : Event) (bus : I2c) : Servo :=
  match s.state, event with
  | .idle, .directions => s.enterScan bus
  | .scan, .directions => s.scanOn bus
  | .scan, .noiseDetected => s.enterNoiseScan bus
  | .scan, .lock => s.enterTargetLock bus
  | .noiseScan, .rotationTimeout => s.enterScan bus
  | .targetLock, .directions => if s.lastSeq = s.target.seq then s else s.follow bus
  | .targetLock, .scan => s.enterScan bus
  | _, _ => s

end Servo

/-- The angles that the servos may be sent to. -/
def ServoAngles.InLimits (a : ServoAngles) : Prop :=
  (servoHorizontalMin ≤ a.hor ∧ a.hor ≤ servoHorizontalMax) ∧
    servoVerticalMin ≤ a.ver ∧ a.ver ≤ servoVerticalMax

instance (a : ServoAngles) : Decidable a.InLimits :=
  inferInstanceAs (Decidable ((_ ∧ _) ∧ _ ∧ _))

namespace Servo

def setTarget (s : Servo) (hor ver : ℚ) : Status × Servo :=
  if hor < servoHorizontalMin ∨ servoHorizontalMax < hor then (.invalidValue, s)
  else if ver < servoVerticalMin ∨ servoVerticalMax < ver then (.invalidValue, s)
  else if s.mutex = false then (.actionFailed, s)
  else
    (.successful, { s with target := ⟨⟨hor, ver⟩, (s.target.seq + 1) % 2 ^ 32⟩ })

end Servo

inductive ServoAct where
  | init (answers : ServoInit) (bus : I2c)
  | dispatch (event : Event) (bus : I2c)
  | setTarget (hor ver : ℚ)

namespace Servo

/-- The event loop sends `eFSM_EVENT_INIT` before any other event. Targets may be set at any
time. -/
def apply (s : Servo) : ServoAct → Option Servo
  | .init answers bus => if s.state = .init then some (s.start answers bus) else none
  | .dispatch event bus => if s.state = .init then none else some (s.dispatch event bus)
  | .setTarget hor ver => some (s.setTarget hor ver).2

def Step (s : Servo) (a : ServoAct) (t : Servo) : Prop := s.apply a = some t

/-! ## What a step does -/

variable {s t : Servo} {bus : I2c} {angles : ServoAngles}

@[simp] theorem setBothAngles_state : (s.setBothAngles bus angles).state = s.state := rfl

@[simp] theorem setBothAngles_scan : (s.setBothAngles bus angles).scan = s.scan := rfl

@[simp] theorem setBothAngles_target : (s.setBothAngles bus angles).target = s.target := rfl

@[simp] theorem setBothAngles_lastSeq : (s.setBothAngles bus angles).lastSeq = s.lastSeq := rfl

@[simp] theorem setBothAngles_passed :
    (s.setBothAngles bus angles).passed = s.passed ++ [angles] := rfl

@[simp] theorem scanOperation_state : s.scanOperation.state = s.state := by
  unfold scanOperation
  split_ifs <;> rfl

@[simp] theorem scanOperation_target : s.scanOperation.target = s.target := by
  unfold scanOperation
  split_ifs <;> rfl

@[simp] theorem scanOn_state : (s.scanOn bus).state = s.state := by
  unfold scanOn
  split_ifs <;> simp [readBack]

@[simp] theorem scanOn_target : (s.scanOn bus).target = s.target := by
  unfold scanOn
  split_ifs <;> simp [readBack]

/-- A target is either accepted and stored with the next number, or nothing changes. -/
theorem setTarget_accepted_or_refused (s : Servo) (hor ver : ℚ) :
    ((s.setTarget hor ver).1 = .successful ∧ ServoAngles.InLimits ⟨hor, ver⟩ ∧ s.mutex = true ∧
      (s.setTarget hor ver).2 =
        { s with target := ⟨⟨hor, ver⟩, (s.target.seq + 1) % 2 ^ 32⟩ }) ∨
      ((s.setTarget hor ver).1 ≠ .successful ∧ (s.setTarget hor ver).2 = s) := by
  unfold setTarget
  split_ifs with hhor hver hmutex
  · exact .inr ⟨by simp, rfl⟩
  · exact .inr ⟨by simp, rfl⟩
  · exact .inr ⟨by simp, rfl⟩
  · rw [not_or, not_lt, not_lt] at hhor hver
    exact .inl ⟨rfl, ⟨hhor, hver⟩, by simpa using hmutex, rfl⟩

/-- The machine of the active object is the same one, without the angles. -/
theorem dispatch_state (s : Servo) (event : Event) (bus : I2c) :
    (s.dispatch event bus).state = (s.state.dispatch event).1 := by
  unfold dispatch
  split
  · rename_i hstate
    simp [hstate, ServoState.dispatch, enterScan]
  · rename_i hstate
    simp [hstate, ServoState.dispatch]
  · rename_i hstate
    simp [hstate, ServoState.dispatch, enterNoiseScan]
  · rename_i hstate
    simp [hstate, ServoState.dispatch, enterTargetLock, follow]
  · rename_i hstate
    simp [hstate, ServoState.dispatch, enterScan]
  · rename_i hstate
    split_ifs <;> simp [hstate, ServoState.dispatch, follow]
  · rename_i hstate
    simp [hstate, ServoState.dispatch, enterScan]
  · unfold ServoState.dispatch
    split <;> simp_all

theorem start_state (s : Servo) (answers : ServoInit) (bus : I2c) (frameValid : Bool) :
    (s.start answers bus).state = (ServoState.start ⟨answers.Ok, frameValid⟩).1 := by
  by_cases hok : answers.Ok
  · simp [start, hok, enterIdle, initAngles, setAngles, ServoState.start]
  · simp [start, hok, ServoState.start]

def handles : ServoState → Event → Bool
  | .idle, .directions => true
  | .scan, .directions => true
  | .scan, .noiseDetected => true
  | .scan, .lock => true
  | .noiseScan, .rotationTimeout => true
  | .targetLock, .directions => true
  | .targetLock, .scan => true
  | _, _ => false

/-- The steps of the machine, one constructor for each thing that a step can do. -/
inductive Does (s : Servo) : ServoAct → Servo → Prop where
  | failed {answers : ServoInit} {bus : I2c} (hinit : s.state = .init) (hok : ¬ answers.Ok) :
      Does s (.init answers bus) { s with state := .error, mutex := answers.pca && answers.mutex }
  | started {answers : ServoInit} {bus : I2c} (hinit : s.state = .init) (hok : answers.Ok) :
      Does s (.init answers bus)
        ({ s with mutex := answers.pca && answers.mutex }.enterIdle bus)
  | targetRefused {hor ver : ℚ} : Does s (.setTarget hor ver) s
  | targetSet {hor ver : ℚ} (hlimits : ServoAngles.InLimits ⟨hor, ver⟩) (hmutex : s.mutex = true) :
      Does s (.setTarget hor ver)
        { s with target := ⟨⟨hor, ver⟩, (s.target.seq + 1) % 2 ^ 32⟩ }
  | entersScan {event : Event} {bus : I2c}
      (hentry : (s.state = .idle ∧ event = .directions) ∨
        (s.state = .noiseScan ∧ event = .rotationTimeout) ∨
        (s.state = .targetLock ∧ event = .scan)) :
      Does s (.dispatch event bus) (s.enterScan bus)
  | scansOn {bus : I2c} (hstate : s.state = .scan) :
      Does s (.dispatch .directions bus) (s.scanOn bus)
  | entersNoiseScan {bus : I2c} (hstate : s.state = .scan) :
      Does s (.dispatch .noiseDetected bus) (s.enterNoiseScan bus)
  | entersTargetLock {bus : I2c} (hstate : s.state = .scan) :
      Does s (.dispatch .lock bus) (s.enterTargetLock bus)
  | follows {bus : I2c} (hstate : s.state = .targetLock) (hseq : s.lastSeq ≠ s.target.seq) :
      Does s (.dispatch .directions bus) (s.follow bus)
  | keeps {bus : I2c} (hstate : s.state = .targetLock) (hseq : s.lastSeq = s.target.seq) :
      Does s (.dispatch .directions bus) s
  | ignores {event : Event} {bus : I2c} (hstate : s.state ≠ .init)
      (hother : handles s.state event = false) : Does s (.dispatch event bus) s

theorem dispatch_does (s : Servo) (hstate : s.state ≠ .init) (event : Event) (bus : I2c) :
    Does s (.dispatch event bus) (s.dispatch event bus) := by
  unfold dispatch
  split
  · exact .entersScan (.inl ⟨‹_›, rfl⟩)
  · exact .scansOn ‹_›
  · exact .entersNoiseScan ‹_›
  · exact .entersTargetLock ‹_›
  · exact .entersScan (.inr (.inl ⟨‹_›, rfl⟩))
  · split_ifs with hseq
    · exact .keeps ‹_› hseq
    · exact .follows ‹_› hseq
  · exact .entersScan (.inr (.inr ⟨‹_›, rfl⟩))
  · refine .ignores hstate ?_
    unfold handles
    split <;> simp_all

theorem step_does {a : ServoAct} (h : Step s a t) : Does s a t := by
  cases a with
  | init answers bus =>
    simp only [Step, apply] at h
    split_ifs at h with hinit
    cases h
    unfold start
    dsimp only
    split_ifs with hok
    · exact .started hinit hok
    · exact .failed hinit hok
  | dispatch event bus =>
    simp only [Step, apply] at h
    split_ifs at h with hinit
    cases h
    exact s.dispatch_does hinit event bus
  | setTarget hor ver =>
    cases h
    rcases s.setTarget_accepted_or_refused hor ver with ⟨_, hlimits, hmutex, heq⟩ | ⟨_, heq⟩
    · rw [heq]
      exact .targetSet hlimits hmutex
    · rw [heq]
      exact .targetRefused

end Servo

end SnipeIt.Ddl
