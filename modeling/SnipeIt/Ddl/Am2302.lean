import Mathlib.Data.Nat.Find
import Mathlib.Data.Rat.Defs
import Mathlib.Order.Monotone.Defs
import SnipeIt.Status

/-! # The driver of the AM2302

The driver polls a line and the clock. The moments at which it calls the HAL or
reads the clock are numbered, and what they answer is given for each of them. A
call of the driver changes what a transaction works on, and has a value or an
error.
-/

namespace SnipeIt.Ddl.Am2302

def startSignalHoldMs : ℕ := 1

def responseTimeoutUs : ℕ := 300

def responsePhaseTimeoutUs : ℕ := 150

def bitTimeoutUs : ℕ := 200

def bitThresholdUs : ℕ := 50

def bitCount : ℕ := 40

/-! ## Calls -/

inductive GpioDirection where
  | input | output

/-- What each call meets. The clock does not go back, and does not stand still for ever. -/
structure Hardware where
  /-- `am2302_get_time_us`. -/
  clock : ℕ → ℕ
  /-- `hal_gpio_read`: the level, unless it fails. -/
  level : ℕ → Option ℤ
  /-- `hal_gpio_set_direction`. -/
  direction : GpioDirection → ℕ → Status
  mono : Monotone clock
  unbounded : ∀ t, ∃ n, t ≤ clock n

structure TempHumFrame where
  humidityHi : UInt8
  humidityLo : UInt8
  temperatureHi : UInt8
  temperatureLo : UInt8
  parity : UInt8
  deriving DecidableEq

namespace TempHumFrame

def bytes (frame : TempHumFrame) : List UInt8 :=
  [frame.humidityHi, frame.humidityLo, frame.temperatureHi, frame.temperatureLo, frame.parity]

def modifyByte (frame : TempHumFrame) (f : UInt8 → UInt8) : ℕ → TempHumFrame
  | 0 => { frame with humidityHi := f frame.humidityHi }
  | 1 => { frame with humidityLo := f frame.humidityLo }
  | 2 => { frame with temperatureHi := f frame.temperatureHi }
  | 3 => { frame with temperatureLo := f frame.temperatureLo }
  | 4 => { frame with parity := f frame.parity }
  | _ => frame

end TempHumFrame

/-- The next moment, `resp_frame`, and what a frame is decoded into. -/
structure State where
  moment : ℕ
  respFrame : TempHumFrame
  humidity : ℚ
  temperature : ℚ

/-- A call of the driver. An error is the status that it returns. -/
def Driver (α : Type) : Type := State → Except Status α × State

namespace Driver

variable {α β : Type}

/-- One call after the other, unless the first one fails. -/
def andThen (x : Driver α) (f : α → Driver β) : Driver β := fun s =>
  match x s with
  | (.ok a, s') => f a s'
  | (.error status, s') => (.error status, s')

instance : Monad Driver where
  pure a := fun s => (.ok a, s)
  bind := andThen

/-- The call fails. -/
def fail (status : Status) : Driver α := fun s => (.error status, s)

def modify (f : State → State) : Driver Unit := fun s => (.ok (), f s)

theorem modify_bind (g : State → State) (f : Unit → Driver β) (s : State) :
    (Driver.modify g >>= f) s = f () (g s) := rfl

theorem bind_ok {x : Driver α} {f : α → Driver β} {s s' : State} {a : α}
    (h : x s = (.ok a, s')) : (x >>= f) s = f a s' := by
  change andThen x f s = f a s'
  rw [andThen, h]

theorem bind_error {x : Driver α} {f : α → Driver β} {s s' : State} {status : Status}
    (h : x s = (.error status, s')) : (x >>= f) s = (.error status, s') := by
  change andThen x f s = (.error status, s')
  rw [andThen, h]

theorem bind_eq_ok {x : Driver α} {f : α → Driver β} {s t : State} {b : β}
    (h : (x >>= f) s = (.ok b, t)) : ∃ a s', x s = (.ok a, s') ∧ f a s' = (.ok b, t) := by
  rcases hcall : x s with ⟨_ | a, s'⟩
  · rw [bind_error hcall] at h
    cases h
  · rw [bind_ok hcall] at h
    exact ⟨a, s', rfl, h⟩

end Driver

variable (w : Hardware)

def getTimeUs : Driver ℕ := fun s => (.ok (w.clock s.moment), { s with moment := s.moment + 1 })

def setDirection (direction : GpioDirection) : Driver Unit := fun s =>
  let status := w.direction direction s.moment
  (if status = .successful then .ok () else .error status, { s with moment := s.moment + 1 })

/-- `osal_delay_ms`, after which the clock shows whatever it shows. -/
def delayMs (_ : ℕ) : Driver Unit := .modify fun s => { s with moment := s.moment + 1 }

/-- A poll that does not come after the deadline is not the last one for ever. -/
theorem before_deadline {w : Hardware} {deadline n : ℕ} (h : ¬ deadline ≤ w.clock n) :
    n < Nat.find (w.unbounded deadline) := by
  by_contra hle
  exact h ((Nat.find_spec (w.unbounded deadline)).trans (w.mono (not_lt.mp hle)))

/-- The loop of `am2302_wait_for_level` from a moment on: when the level was seen, and the next
moment. -/
def waitLoop (targetLevel : ℤ) (deadline n : ℕ) : Except Status ℕ × ℕ :=
  match w.level n with
  | none => (.error .deviceError, n + 1)
  | some level =>
    if level = targetLevel then (.ok (w.clock (n + 1)), n + 2)
    else if h : deadline ≤ w.clock (n + 1) then (.error .actionFailed, n + 2)
    else waitLoop targetLevel deadline (n + 2)
termination_by Nat.find (w.unbounded deadline) - n
decreasing_by
  have hlt := before_deadline h
  omega

def pollUntil (targetLevel : ℤ) (deadline : ℕ) : Driver ℕ := fun s =>
  let (result, n) := waitLoop w targetLevel deadline s.moment
  (result, { s with moment := n })

def waitForLevel (targetLevel : ℤ) (timeoutUs : ℕ) : Driver ℕ := do
  let deadline := (← getTimeUs w) + timeoutUs
  pollUntil w targetLevel deadline

def sendReadRequest : Driver Unit := do
  setDirection w .output
  delayMs startSignalHoldMs
  setDirection w .input

def waitForResponse : Driver Unit := do
  let _ ← waitForLevel w 0 responseTimeoutUs
  let _ ← waitForLevel w 1 responsePhaseTimeoutUs
  let _ ← waitForLevel w 0 responsePhaseTimeoutUs
  return ()

def readBit : Driver UInt8 := do
  let rise ← waitForLevel w 1 bitTimeoutUs
  let fall ← waitForLevel w 0 bitTimeoutUs
  return if bitThresholdUs < fall - rise then 1 else 0

def readBits : ℕ → Driver Unit
  | 0 => return ()
  | i + 1 => do
    readBits i
    let bit ← readBit w
    .modify fun s =>
      { s with respFrame := s.respFrame.modifyByte (fun byte => (byte <<< 1) ||| bit) (i / 8) }

def readFrame : Driver Unit := do
  .modify fun s => { s with respFrame := ⟨0, 0, 0, 0, 0⟩ }
  readBits w bitCount

def respFrame : Driver TempHumFrame := fun s => (.ok s.respFrame, s)

def parityCheck (frame : TempHumFrame) : Bool :=
  frame.humidityHi + frame.humidityLo + frame.temperatureHi + frame.temperatureLo = frame.parity

def humidityOf (frame : TempHumFrame) : ℚ :=
  let rawHumidity : UInt16 := (frame.humidityHi.toUInt16 <<< 8) ||| frame.humidityLo.toUInt16
  rawHumidity.toNat / 10

def temperatureOf (frame : TempHumFrame) : ℚ :=
  let rawTemp : UInt16 := (frame.temperatureHi.toUInt16 <<< 8) ||| frame.temperatureLo.toUInt16
  let negative := rawTemp &&& 0x8000 ≠ 0
  let magnitude := rawTemp &&& 0x7FFF
  let tempC : ℚ := magnitude.toNat / 10
  if negative then -tempC else tempC

def decodeFrame (frame : TempHumFrame) : Driver Unit := .modify fun s =>
  { s with humidity := humidityOf frame, temperature := temperatureOf frame }

def init : Driver ℕ := do
  setDirection w .input
  getTimeUs w

def read : Driver Unit := do
  sendReadRequest w
  waitForResponse w
  readFrame w
  let frame ← respFrame
  if parityCheck frame = false then .fail .actionFailed else decodeFrame frame

/-! ## What a call changes -/

/-- A call that changes neither the humidity nor the temperature. -/
def Keeps {α : Type} (x : Driver α) : Prop :=
  ∀ s, s.moment ≤ (x s).2.moment ∧ (x s).2.humidity = s.humidity ∧
    (x s).2.temperature = s.temperature

section Keeps

variable {α β : Type} {x : Driver α}

theorem Keeps.pure (a : α) : Keeps (Pure.pure a : Driver α) := fun _ => ⟨le_rfl, rfl, rfl⟩

theorem Keeps.bind {f : α → Driver β} (hx : Keeps x) (hf : ∀ a, Keeps (f a)) :
    Keeps (x >>= f) := by
  intro s
  obtain ⟨hmoment, hhumidity, htemperature⟩ := hx s
  rcases hcall : x s with ⟨_ | a, s'⟩
  · rw [Driver.bind_error hcall]
    rw [hcall] at hmoment hhumidity htemperature
    exact ⟨hmoment, hhumidity, htemperature⟩
  · rw [Driver.bind_ok hcall]
    rw [hcall] at hmoment hhumidity htemperature
    obtain ⟨hmoment', hhumidity', htemperature'⟩ := hf a s'
    exact ⟨hmoment.trans hmoment', hhumidity'.trans hhumidity, htemperature'.trans htemperature⟩

theorem Keeps.modify {f : State → State} (hmoment : ∀ s, s.moment ≤ (f s).moment)
    (hhumidity : ∀ s, (f s).humidity = s.humidity)
    (htemperature : ∀ s, (f s).temperature = s.temperature) : Keeps (.modify f) :=
  fun s => ⟨hmoment s, hhumidity s, htemperature s⟩

end Keeps

variable {w}

theorem getTimeUs_keeps : Keeps (getTimeUs w) := fun _ => ⟨Nat.le_succ _, rfl, rfl⟩

theorem setDirection_keeps (direction : GpioDirection) : Keeps (setDirection w direction) :=
  fun _ => ⟨Nat.le_succ _, rfl, rfl⟩

theorem delayMs_keeps (ms : ℕ) : Keeps (delayMs ms) :=
  .modify (fun s => Nat.le_succ s.moment) (fun _ => rfl) fun _ => rfl

theorem waitLoop_moment (targetLevel : ℤ) (deadline n : ℕ) :
    n ≤ (waitLoop w targetLevel deadline n).2 := by
  fun_induction waitLoop w targetLevel deadline n with
  | case1 n => exact Nat.le_succ n
  | case2 n => exact Nat.le_add_right n 2
  | case3 n => exact Nat.le_add_right n 2
  | case4 n _ _ _ _ ih => exact (Nat.le_add_right n 2).trans ih

theorem waitForLevel_keeps (targetLevel : ℤ) (timeoutUs : ℕ) :
    Keeps (waitForLevel w targetLevel timeoutUs) := by
  apply getTimeUs_keeps.bind
  intro time s
  exact ⟨waitLoop_moment targetLevel (time + timeoutUs) s.moment, rfl, rfl⟩

theorem sendReadRequest_keeps : Keeps (sendReadRequest w) := by
  apply (setDirection_keeps .output).bind
  intro _
  apply (delayMs_keeps startSignalHoldMs).bind
  intro _
  exact setDirection_keeps .input

theorem waitForResponse_keeps : Keeps (waitForResponse w) := by
  apply (waitForLevel_keeps 0 responseTimeoutUs).bind
  intro _
  apply (waitForLevel_keeps 1 responsePhaseTimeoutUs).bind
  intro _
  apply (waitForLevel_keeps 0 responsePhaseTimeoutUs).bind
  intro _
  exact .pure ()

theorem readBit_keeps : Keeps (readBit w) := by
  apply (waitForLevel_keeps 1 bitTimeoutUs).bind
  intro _
  apply (waitForLevel_keeps 0 bitTimeoutUs).bind
  intro _
  exact .pure _

theorem readBits_keeps (n : ℕ) : Keeps (readBits w n) := by
  induction n with
  | zero => exact .pure ()
  | succ n ih =>
    apply ih.bind
    intro _
    apply readBit_keeps.bind
    intro _
    exact .modify (fun _ => le_rfl) (fun _ => rfl) fun _ => rfl

theorem readFrame_keeps : Keeps (readFrame w) := by
  have hclear : Keeps (.modify fun s => { s with respFrame := ⟨0, 0, 0, 0, 0⟩ }) :=
    .modify (fun _ => le_rfl) (fun _ => rfl) fun _ => rfl
  apply hclear.bind
  intro _
  exact readBits_keeps bitCount

theorem init_keeps : Keeps (init w) := by
  apply (setDirection_keeps .input).bind
  intro _
  exact getTimeUs_keeps

theorem init_time {s s' : State} {time : ℕ} (h : init w s = (.ok time, s')) :
    time ≤ w.clock s'.moment := by
  rcases hcall : setDirection w .input s with ⟨status | ⟨⟩, t⟩
  · rw [init, Driver.bind_error hcall] at h
    cases h
  · rw [init, Driver.bind_ok hcall] at h
    cases h
    exact w.mono (Nat.le_succ _)

/-- What `am2302_read` leaves: the values of a frame that passes the parity check, or the values
from before. -/
inductive Outcome (s s' : State) : Except Status Unit → Prop where
  | ok (hparity : parityCheck s'.respFrame = true)
      (hhumidity : s'.humidity = humidityOf s'.respFrame)
      (htemperature : s'.temperature = temperatureOf s'.respFrame) : Outcome s s' (.ok ())
  | error {status : Status} (hhumidity : s'.humidity = s.humidity)
      (htemperature : s'.temperature = s.temperature) : Outcome s s' (.error status)

theorem Outcome.after {s s' t : State} {result : Except Status Unit} (h : Outcome s' t result)
    (hhumidity : s'.humidity = s.humidity) (htemperature : s'.temperature = s.temperature) :
    Outcome s t result := by
  cases h with
  | ok hparity hhumidity' htemperature' => exact .ok hparity hhumidity' htemperature'
  | error hhumidity' htemperature' =>
    exact .error (hhumidity'.trans hhumidity) (htemperature'.trans htemperature)

/-- A call that comes to such an outcome. -/
def Decides (x : Driver Unit) : Prop :=
  ∀ s, s.moment ≤ (x s).2.moment ∧ Outcome s (x s).2 (x s).1

theorem Decides.bind {α : Type} {x : Driver α} {f : α → Driver Unit} (hx : Keeps x)
    (hf : ∀ a, Decides (f a)) : Decides (x >>= f) := by
  intro s
  obtain ⟨hmoment, hhumidity, htemperature⟩ := hx s
  rcases hcall : x s with ⟨_ | a, s'⟩
  · rw [Driver.bind_error hcall]
    rw [hcall] at hmoment hhumidity htemperature
    exact ⟨hmoment, .error hhumidity htemperature⟩
  · rw [Driver.bind_ok hcall]
    rw [hcall] at hmoment hhumidity htemperature
    obtain ⟨hmoment', houtcome⟩ := hf a s'
    exact ⟨hmoment.trans hmoment', houtcome.after hhumidity htemperature⟩

theorem read_decides (w : Hardware) : Decides (read w) := by
  apply Decides.bind sendReadRequest_keeps
  intro _
  apply Decides.bind waitForResponse_keeps
  intro _
  apply Decides.bind readFrame_keeps
  intro _ s
  have hframe : respFrame s = (.ok s.respFrame, s) := rfl
  rw [Driver.bind_ok hframe]
  split_ifs with hparity
  · exact ⟨le_rfl, .error rfl rfl⟩
  · exact ⟨le_rfl, .ok (Bool.not_eq_false _ ▸ hparity) rfl rfl⟩

end SnipeIt.Ddl.Am2302
