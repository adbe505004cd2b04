import SnipeIt.Ddl.Servo

/-! # Following a locked target

The target lock state keeps the number of the target that it has gone to before
it knows whether the servos have moved, and it is entered from the scan only.
-/

namespace SnipeIt.Ddl
open ActiveObject Support

/-- The target lock state keeps the number of the target. -/
def Servo.records (s : Servo) (event : Event) : Bool :=
  match s.state, event with
  | .scan, .lock => true
  | .targetLock, .directions => s.lastSeq ≠ s.target.seq
  | _, _ => false

/-- The machine from its initialisation on, with what happened to it. -/
structure LockedServo where
  servo : Servo
  /-- The target that was accepted last. -/
  newest : Option ServoAngles
  /-- A lock event was dispatched, and no scan event since. -/
  locked : Bool
  /-- The targets accepted since the target lock state last kept a number. -/
  since : ℕ
  /-- Both angles were written then. -/
  landed : Bool

namespace LockedServo

def initialised (hor ver : ServoChannel) (answers : ServoInit) (bus : I2c) : LockedServo where
  servo := (Servo.created hor ver).start answers bus
  newest := none
  locked := false
  since := 0
  landed := false

def dispatch (s : LockedServo) (event : Event) (bus : I2c) : LockedServo where
  servo := s.servo.dispatch event bus
  newest := s.newest
  locked := if event = .lock then true else if event = .scan then false else s.locked
  since := if s.servo.records event then 0 else s.since
  landed := if s.servo.records event then decide bus.Works else s.landed

def setTarget (s : LockedServo) (hor ver : ℚ) : LockedServo :=
  if (s.servo.setTarget hor ver).1 = .successful then
    { s with
      servo := (s.servo.setTarget hor ver).2
      newest := some ⟨hor, ver⟩
      since := s.since + 1 }
  else { s with servo := (s.servo.setTarget hor ver).2 }

def apply (s : LockedServo) : ServoAct → Option LockedServo
  | .init _ _ => none
  | .dispatch event bus => some (s.dispatch event bus)
  | .setTarget hor ver => some (s.setTarget hor ver)

def Step (s : LockedServo) (a : ServoAct) (t : LockedServo) : Prop := s.apply a = some t

/-- A directions event that is handled while locked and with a working bus leaves both channels at
the newest target. -/
def Follows (s : LockedServo) (a : ServoAct) (t : LockedServo) : Prop :=
  ∀ bus, a = .dispatch .directions bus → s.locked = true → bus.Works →
    ∀ target ∈ s.newest, t.servo.hor.angle = target.hor ∧ t.servo.ver.angle = target.ver

/-- Lock events come in the scan, or when the machine is locked; and a directions event that finds
the number kept finds it of the target that was written, not of a later one. -/
def LockFits (s : LockedServo) : ServoAct → Prop
  | .dispatch event bus =>
    (event = .lock → s.servo.state = .scan ∨ s.servo.state = .targetLock) ∧
      (event = .directions → s.locked = true → bus.Works → 2 ^ 32 ∣ s.since →
        s.since = 0 ∧ s.landed = true)
  | _ => True

instance (s : LockedServo) (a : ServoAct) : Decidable (s.LockFits a) :=
  match a with
  | .init _ _ => inferInstanceAs (Decidable True)
  | .dispatch _ _ => inferInstanceAs (Decidable (_ ∧ _))
  | .setTarget _ _ => inferInstanceAs (Decidable True)

/-- The channels hold the target. -/
def OnTarget (s : LockedServo) : Prop :=
  s.servo.hor.angle = s.servo.target.angles.hor ∧ s.servo.ver.angle = s.servo.target.angles.ver

structure Following (s : LockedServo) : Prop where
  locked : s.locked = true → s.servo.state = .targetLock
  newest : ∀ target ∈ s.newest, s.servo.target.angles = target
  bound : s.servo.target.seq < 2 ^ 32
  kept : s.servo.state = .targetLock →
    s.servo.target.seq = (s.servo.lastSeq + s.since) % 2 ^ 32 ∧ s.servo.lastSeq < 2 ^ 32
  landed : s.servo.state = .targetLock → s.since = 0 → s.landed = true → s.OnTarget
  up : s.servo.state ≠ .init

variable {s t : LockedServo} {a : ServoAct} {acts : List ServoAct}

theorem Following.unlocked (hs : s.Following) {state : ServoState} (hstate : s.servo.state = state)
    (hne : state ≠ .targetLock) : s.locked = false := by
  by_contra hlocked
  exact hne (hstate.symm.trans (hs.locked (by simpa using hlocked)))

/-- What holds of a step that ends outside the target lock state. -/
theorem Following.elsewhere (hs : s.Following) {event : Event} {bus : I2c}
    (hstate : (s.dispatch event bus).servo.state ≠ .targetLock)
    (hup : (s.dispatch event bus).servo.state ≠ .init)
    (htarget : (s.dispatch event bus).servo.target = s.servo.target)
    (hlocked : (s.dispatch event bus).locked = false) : (s.dispatch event bus).Following where
  locked := fun h => by simp [hlocked] at h
  newest := fun target hnewest => by
    rw [htarget]
    exact hs.newest target hnewest
  bound := htarget ▸ hs.bound
  kept := fun h => absurd h hstate
  landed := fun h => absurd h hstate
  up := hup

theorem Following.follow (hs : s.Following) {event : Event} {bus : I2c}
    (hservo : s.servo.dispatch event bus = { s.servo with state := .targetLock }.follow bus)
    (hrecords : s.servo.records event = true) : (s.dispatch event bus).Following where
  locked := fun _ => by simp [LockedServo.dispatch, hservo, Servo.follow]
  newest := by simpa [LockedServo.dispatch, hservo, Servo.follow] using hs.newest
  bound := by simpa [LockedServo.dispatch, hservo, Servo.follow] using hs.bound
  kept := fun _ => by
    have hbound : s.servo.target.seq < 2 ^ 32 := hs.bound
    simp only [LockedServo.dispatch, hservo, Servo.follow, hrecords, Servo.setBothAngles_target,
      Servo.setBothAngles_lastSeq, if_true]
    omega
  landed := fun _ _ hlanded => by
    have hworks : bus.Works := by simpa [LockedServo.dispatch, hrecords] using hlanded
    simp [OnTarget, LockedServo.dispatch, hservo, Servo.follow, Servo.setBothAngles,
      Servo.setAngles, servoSetAngle, hworks.1, hworks.2]
  up := by simp [LockedServo.dispatch, hservo, Servo.follow]

theorem Following.dispatch (hs : s.Following) {event : Event} {bus : I2c}
    (hfit : s.LockFits (.dispatch event bus)) : (s.dispatch event bus).Following := by
  have hdoes := s.servo.dispatch_does hs.up event bus
  generalize hservo : s.servo.dispatch event bus = servo at hdoes
  cases hdoes with
  | entersScan hentry =>
    have hlocked : (s.dispatch event bus).locked = false := by
      rcases hentry with ⟨hstate, rfl⟩ | ⟨hstate, rfl⟩ | ⟨hstate, rfl⟩
      · simp [LockedServo.dispatch, hs.unlocked hstate]
      · simp [LockedServo.dispatch, hs.unlocked hstate]
      · simp [LockedServo.dispatch]
    refine hs.elsewhere ?_ ?_ ?_ hlocked
    · simp [LockedServo.dispatch, hservo, Servo.enterScan]
    · simp [LockedServo.dispatch, hservo, Servo.enterScan]
    · simp [LockedServo.dispatch, hservo, Servo.enterScan]
  | scansOn hstate =>
    refine hs.elsewhere ?_ ?_ ?_ ?_
    · simp [LockedServo.dispatch, hservo, hstate]
    · simp [LockedServo.dispatch, hservo, hstate]
    · simp [LockedServo.dispatch, hservo]
    · simp [LockedServo.dispatch, hs.unlocked hstate]
  | entersNoiseScan hstate =>
    refine hs.elsewhere ?_ ?_ ?_ ?_
    · simp [LockedServo.dispatch, hservo, Servo.enterNoiseScan]
    · simp [LockedServo.dispatch, hservo, Servo.enterNoiseScan]
    · simp [LockedServo.dispatch, hservo, Servo.enterNoiseScan]
    · simp [LockedServo.dispatch, hs.unlocked hstate]
  | entersTargetLock hstate =>
    exact hs.follow hservo (by simp [Servo.records, hstate])
  | follows hstate hseq =>
    have hsame : ({ s.servo with state := .targetLock } : Servo) = s.servo := by rw [← hstate]
    exact hs.follow (by rw [hservo, hsame]) (by simp [Servo.records, hstate, hseq])
  | keeps hstate hseq =>
    have hrecords : s.servo.records .directions = false := by simp [Servo.records, hstate, hseq]
    have hsame : s.dispatch .directions bus = s := by
      simp [LockedServo.dispatch, hservo, hrecords]
    rwa [hsame]
  | ignores _ hother =>
    have hrecords : s.servo.records event = false := by
      unfold Servo.records
      split <;> simp_all [Servo.handles]
    refine ⟨fun hlocked => ?_, ?_, ?_, ?_, ?_, ?_⟩
    · by_cases hlock : event = .lock
      · subst hlock
        rcases hfit.1 rfl with hstate | hstate
        · simp [Servo.handles, hstate] at hother
        · simpa [LockedServo.dispatch, hservo] using hstate
      · have hlocked' : s.locked = true := by
          have hboth : event ≠ .scan ∧ s.locked = true := by
            simpa [LockedServo.dispatch, hlock] using hlocked
          exact hboth.2
        simpa [LockedServo.dispatch, hservo] using hs.locked hlocked'
    · simpa [LockedServo.dispatch, hservo] using hs.newest
    · simpa [LockedServo.dispatch, hservo] using hs.bound
    · simpa [LockedServo.dispatch, hservo, hrecords] using hs.kept
    · simpa [LockedServo.dispatch, hservo, hrecords, OnTarget] using hs.landed
    · simpa [LockedServo.dispatch, hservo] using hs.up

/-- The kept number is the target's only if as many targets were accepted since as there are
numbers, or none. -/
theorem Following.dvd_since (hs : s.Following) (hstate : s.servo.state = .targetLock)
    (hseq : s.servo.lastSeq = s.servo.target.seq) : 2 ^ 32 ∣ s.since := by
  obtain ⟨hkept, hbound⟩ := hs.kept hstate
  omega

theorem Following.follows (hs : s.Following) {bus : I2c}
    (hfit : s.LockFits (.dispatch .directions bus)) :
    Follows s (.dispatch .directions bus) (s.dispatch .directions bus) := by
  intro bus' hact hlocked hworks target htarget
  cases hact
  have hstate : s.servo.state = .targetLock := hs.locked hlocked
  rw [← hs.newest target htarget]
  by_cases hseq : s.servo.lastSeq = s.servo.target.seq
  · have hsame : s.servo.dispatch .directions bus = s.servo := by
      simp [Servo.dispatch, hstate, hseq]
    obtain ⟨hsince, hlanded⟩ := hfit.2 rfl hlocked hworks (hs.dvd_since hstate hseq)
    have hon : s.OnTarget := hs.landed hstate hsince hlanded
    simpa [LockedServo.dispatch, hsame, OnTarget] using hon
  · simp [LockedServo.dispatch, Servo.dispatch, hstate, hseq, Servo.follow, Servo.setBothAngles,
      Servo.setAngles, servoSetAngle, hworks.1, hworks.2]

theorem Following.setTarget (hs : s.Following) (hor ver : ℚ) :
    (s.setTarget hor ver).Following := by
  rcases s.servo.setTarget_accepted_or_refused hor ver with ⟨hok, _, _, heq⟩ | ⟨hrefused, heq⟩
  · rw [LockedServo.setTarget, if_pos hok, heq]
    refine ⟨hs.locked, by simp, Nat.mod_lt _ (by norm_num), fun hstate => ?_, ?_, hs.up⟩
    · obtain ⟨hkept, hbound⟩ := hs.kept hstate
      refine ⟨?_, hbound⟩
      dsimp only
      omega
    · intro _ hzero
      cases hzero
  · rw [LockedServo.setTarget, if_neg hrefused, heq]
    exact hs

theorem Following.step (hs : s.Following) (h : Step s a t) (hfit : s.LockFits a) :
    t.Following ∧ Follows s a t := by
  cases a with
  | init => cases h
  | dispatch event bus =>
    cases h
    refine ⟨hs.dispatch hfit, fun bus' hact => ?_⟩
    cases hact
    exact hs.follows hfit bus rfl
  | setTarget hor ver =>
    cases h
    exact ⟨hs.setTarget hor ver, fun _ hact => by cases hact⟩

theorem initialised_following (hor ver : ServoChannel) {answers : ServoInit} (hok : answers.Ok)
    (bus : I2c) : (initialised hor ver answers bus).Following := by
  have hstate : (initialised hor ver answers bus).servo.state = .idle := by
    simp [initialised, Servo.start, hok, Servo.enterIdle, Servo.initAngles, Servo.setAngles]
  have hseq : (initialised hor ver answers bus).servo.target.seq = 0 := by
    simp [initialised, Servo.start, hok, Servo.enterIdle, Servo.initAngles, Servo.setAngles]
  have hbound : (initialised hor ver answers bus).servo.target.seq < 2 ^ 32 := by
    rw [hseq]
    norm_num
  refine ⟨?_, ?_, hbound, ?_, ?_, ?_⟩
  · simp [initialised]
  · simp [initialised]
  · simp [hstate]
  · simp [hstate]
  · simp [hstate]

/-- In every run in which lock events come where they are handled, and every write of the locked
target goes through before the next directions event that finds its number, a locked servo is at
the newest target after each directions event. -/
theorem locked_servo_follows {hor ver : ServoChannel} {answers : ServoInit} {bus : I2c}
    (hok : answers.Ok)
    (h : Run (Guarded LockFits Step) (initialised hor ver answers bus) acts t) :
    Run (Meeting Follows Step) (initialised hor ver answers bus) acts t :=
  Run.meeting_of_guarded (initialised_following hor ver hok bus)
    (fun _ _ _ hs hst hfit => hs.step hst hfit) h

/-- The target moves on while the lock is held and the bus fails once. -/
def movingTarget : List ServoAct :=
  let bus : I2c := ⟨true, true, none, none⟩
  [.dispatch .directions bus, .setTarget 90 90, .dispatch .lock bus, .setTarget 100 80,
    .dispatch .directions ⟨true, false, none, none⟩, .setTarget 110 70, .dispatch .directions bus]

theorem locked_servo_follows_moving_target :
    ∃ t, Run (Meeting Follows Step)
        (initialised ⟨0, 0⟩ ⟨0, 0⟩ ⟨true, true, true⟩ ⟨true, true, none, none⟩) movingTarget t ∧
      t.newest = some ⟨110, 70⟩ ∧ t.servo.hor.angle = 110 ∧ t.servo.ver.angle = 70 := by
  have hfacts : (exec (fun s a => if decide (s.LockFits a) then apply s a else none)
      (initialised ⟨0, 0⟩ ⟨0, 0⟩ ⟨true, true, true⟩ ⟨true, true, none, none⟩) movingTarget).map
      (fun t => (t.newest, t.servo.hor.angle, t.servo.ver.angle)) =
      some (some ⟨110, 70⟩, 110, 70) := by decide +kernel
  obtain ⟨t, hexec, ht⟩ := Option.map_eq_some_iff.mp hfacts
  simp only [Prod.mk.injEq] at ht
  have hrun : Run (Guarded LockFits Step)
      (initialised ⟨0, 0⟩ ⟨0, 0⟩ ⟨true, true, true⟩ ⟨true, true, none, none⟩) movingTarget t :=
    (Run.of_exec_guarded hexec).mono fun _ _ _ h => ⟨of_decide_eq_true h.1, h.2⟩
  exact ⟨t, locked_servo_follows (by decide) hrun, ht⟩

/-- The bus fails while the scan is left for the target. -/
def lockedWithoutBus : List ServoAct :=
  [.dispatch .directions ⟨true, true, none, none⟩, .setTarget 90 60,
    .dispatch .lock ⟨false, false, none, none⟩]

theorem locked_servo_stays_behind :
    ∃ s t, Run Step (initialised ⟨0, 0⟩ ⟨0, 0⟩ ⟨true, true, true⟩ ⟨true, true, none, none⟩)
        lockedWithoutBus s ∧
      Step s (.dispatch .directions ⟨true, true, none, none⟩) t ∧ s.locked = true ∧
      s.newest = some ⟨90, 60⟩ ∧ t.servo.hor.angle = 0 ∧
      ¬ Follows s (.dispatch .directions ⟨true, true, none, none⟩) t := by
  have hfacts : (exec apply
      (initialised ⟨0, 0⟩ ⟨0, 0⟩ ⟨true, true, true⟩ ⟨true, true, none, none⟩)
      lockedWithoutBus).map (fun s => (s.locked, s.newest,
        (s.dispatch .directions ⟨true, true, none, none⟩).servo.hor.angle)) =
      some (true, some ⟨90, 60⟩, 0) := by decide +kernel
  obtain ⟨s, hexec, hs⟩ := Option.map_eq_some_iff.mp hfacts
  simp only [Prod.mk.injEq] at hs
  obtain ⟨hlocked, hnewest, hangle⟩ := hs
  refine ⟨s, _, Run.of_exec hexec, rfl, hlocked, hnewest, hangle, fun hfollows => ?_⟩
  have hon := (hfollows _ rfl hlocked (by decide) _ hnewest).1
  rw [hangle] at hon
  exact absurd hon (by decide +kernel)

end LockedServo

end SnipeIt.Ddl
