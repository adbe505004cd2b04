import SnipeIt.Hal.Uart

/-! # The state machines of the active objects

What each module of the sensor layer does on an event: the state it comes to
rest in and, in order, its calls into the timer, the UART driver and the event
bus. What the hardware answers is an argument.
-/

namespace SnipeIt.ActiveObject
open Hal

inductive Module where
  | scheduler | broadcaster | distance | servo | temperatureHumidity | gps
  deriving DecidableEq

/-- `app_modules`, in the order in which the application layer goes over them. -/
def appModules : List Module := [.scheduler, .broadcaster]

def ddlModules : List Module := [.distance, .servo, .temperatureHumidity, .gps]

inductive Event where
  | fsmEnd
  | start | stop | tick
  | update
  | read | timeout | frameReceived | configured
  | scan | noiseDetected | lock | directions | rotationTimeout
  deriving DecidableEq

inductive TimerType where
  | once | repeated
  deriving DecidableEq

/-- A call that a state handler makes. A UART callback posts an event to the module itself. -/
inductive Call where
  | timerInit (handler : Event)
  | timerArm (type : TimerType)
  | timerDisarm
  | uartWrite (device : Device) (callback : Option Event)
  | uartRead (device : Device) (callback : Option Event)
  | uartAbort (device : Device)
  | publish (ao : Module) (event : Event)
  deriving DecidableEq

/-- What the hardware answers while an event is handled: whether the initialisation succeeds, and
whether the frame in the response buffer is valid. -/
structure Answers where
  initOk : Bool
  frameValid : Bool

inductive SchedulerState where
  | init | error | idle | run
  deriving DecidableEq

structure Scheduler where
  state : SchedulerState
  tick : ℕ

namespace Scheduler

def subscribersMax : ℕ := 6

/-- The subscribers that `app_init` registers. -/
def subscribers : ℕ → Option (Module × Event)
  | 0 => some (.distance, .read)
  | 1 => some (.servo, .directions)
  | 2 => some (.temperatureHumidity, .read)
  | 3 => some (.gps, .read)
  | 4 => some (.broadcaster, .update)
  | _ => none

def publishSlot (slot : ℕ) : List Call :=
  match subscribers slot with
  | some (ao, event) => [.publish ao event]
  | none => []

def enterIdle (s : Scheduler) : Scheduler := { s with state := .idle, tick := 0 }

def init (s : Scheduler) (answers : Answers) : Scheduler × List Call :=
  if answers.initOk then (s.enterIdle, [.timerInit .tick])
  else ({ s with state := .error }, [])

def dispatch (s : Scheduler) : Event → Scheduler × List Call
  | .start =>
    match s.state with
    | .idle => ({ s with state := .run }, .timerArm .repeated :: publishSlot 0)
    | _ => (s, [])
  | .stop =>
    match s.state with
    | .run => (s.enterIdle, [.timerDisarm])
    | _ => (s, [])
  | .tick =>
    match s.state with
    | .run =>
      let tick := (s.tick + 1) % subscribersMax
      ({ s with tick }, publishSlot tick)
    | _ => (s, [])
  | _ => (s, [])

end Scheduler

/-! ## Distance and GPS

Both read a frame from their device under a one-shot timer and try again a few times.
-/

inductive SensorState where
  | init | error | idle | read | update
  deriving DecidableEq

/-- The read cycle of a sensor, with the valid flag of its frame. -/
structure Sensor where
  state : SensorState
  retry : ℕ
  valid : Bool

namespace Sensor

/-- `eDISTANCE_READ_RETRY_MAX` and `eGPS_READ_RETRY_MAX`. -/
def readRetryMax : ℕ := 3

def enterError (s : Sensor) : Sensor := { s with state := .error, valid := false }

def enterIdle (s : Sensor) : Sensor := { s with state := .idle, retry := 0 }

def enterRead (device : Device) (s : Sensor) : Sensor × List Call :=
  ({ s with state := .read },
    [.uartWrite device none, .uartRead device (some .frameReceived), .timerArm .once])

def retryHandler (device : Device) (s : Sensor) : Sensor × List Call :=
  if s.retry + 1 < readRetryMax then enterRead device { s with retry := s.retry + 1 }
  else (enterIdle { s with retry := s.retry + 1, valid := false }, [])

/-- The update state leaves for another one as soon as it is entered. -/
def enterUpdate (device : Device) (answers : Answers) (s : Sensor) : Sensor × List Call :=
  if answers.frameValid then (enterIdle { s with valid := true }, [])
  else retryHandler device { s with state := .update }

def dispatch (device : Device) (answers : Answers) (s : Sensor) : Event → Sensor × List Call
  | .read =>
    match s.state with
    | .idle => enterRead device s
    | _ => (s, [])
  | .frameReceived =>
    match s.state with
    | .read =>
      let (t, calls) := enterUpdate device answers s
      (t, .timerDisarm :: calls)
    | _ => (s, [])
  | .timeout =>
    match s.state with
    | .read =>
      let (t, calls) := retryHandler device s
      (t, .uartAbort device :: .timerDisarm :: calls)
    | _ => (s, [])
  | _ => (s, [])

theorem dispatch_ne_init {device : Device} {answers : Answers} {event : Event} {s : Sensor}
    (h : s.state ≠ .init) : (s.dispatch device answers event).1.state ≠ .init := by
  have hretry (s' : Sensor) : (s'.retryHandler device).1.state ≠ .init := by
    unfold retryHandler
    split_ifs <;> simp [enterRead, enterIdle]
  unfold dispatch
  split
  · split
    · simp [enterRead]
    · exact h
  · split
    · unfold enterUpdate
      split_ifs
      · simp [enterIdle]
      · exact hretry _
    · exact h
  · split
    · exact hretry s
    · exact h
  · exact h

end Sensor

namespace Distance

def device : Device := .uart0

def init (s : Sensor) (answers : Answers) : Sensor × List Call :=
  if answers.initOk then (Sensor.enterIdle { s with valid := false }, [.timerInit .timeout])
  else (s.enterError, [])

def dispatch (answers : Answers) (s : Sensor) (event : Event) : Sensor × List Call :=
  s.dispatch device answers event

end Distance

/-- The GPS machine sends its configuration, one write at a time, before its first read. -/
structure Gps where
  sensor : Sensor
  configStep : ℕ

namespace Gps

def device : Device := .uart1

def cfgSeqLen : ℕ := 8

def configSendCurrentStep : List Call := [.uartWrite device (some .configured)]

def init (s : Gps) (answers : Answers) : Gps × List Call :=
  if answers.initOk then
    ({ sensor := { s.sensor with valid := false }, configStep := 0 },
      .timerInit .timeout :: configSendCurrentStep)
  else ({ s with sensor := s.sensor.enterError }, [])

def configured (s : Gps) : Gps × List Call :=
  let t := { s with configStep := s.configStep + 1 }
  if t.configStep < cfgSeqLen then (t, configSendCurrentStep)
  else ({ t with sensor := t.sensor.enterIdle }, [])

def dispatch (answers : Answers) (s : Gps) (event : Event) : Gps × List Call :=
  if s.sensor.state = .init then
    match event with
    | .configured => s.configured
    | _ => (s, [])
  else
    let (sensor, calls) := s.sensor.dispatch device answers event
    ({ s with sensor }, calls)

end Gps

inductive ServoState where
  | init | error | idle | scan | noiseScan | targetLock
  deriving DecidableEq

namespace ServoState

/-- The servos, the mutex of the target and the timer are initialised in one condition. -/
def start (answers : Answers) : ServoState × List Call :=
  if answers.initOk then (.idle, [.timerInit .rotationTimeout]) else (.error, [])

def dispatch : ServoState → Event → ServoState × List Call
  | .idle, .directions => (.scan, [])
  | .scan, .noiseDetected => (.noiseScan, [.timerArm .once])
  | .scan, .lock => (.targetLock, [])
  | .noiseScan, .rotationTimeout => (.scan, [.timerDisarm])
  | .targetLock, .scan => (.scan, [])
  | state, _ => (state, [])

end ServoState

/-- A read transaction blocks, so that the read state is never at rest. -/
inductive TemperatureHumidityState where
  | init | error | idle
  deriving DecidableEq

inductive BroadcasterState where
  | init | idle
  deriving DecidableEq

inductive Machine where
  | scheduler (s : Scheduler)
  | broadcaster (s : BroadcasterState)
  | distance (s : Sensor)
  | servo (s : ServoState)
  | temperatureHumidity (s : TemperatureHumidityState)
  | gps (s : Gps)

namespace Machine

/-- The machine of a module before its thread has sent it `eFSM_EVENT_INIT`. -/
def created : Module → Machine
  | .scheduler => .scheduler ⟨.init, 0⟩
  | .broadcaster => .broadcaster .init
  | .distance => .distance ⟨.init, 0, false⟩
  | .servo => .servo .init
  | .temperatureHumidity => .temperatureHumidity .init
  | .gps => .gps ⟨⟨.init, 0, false⟩, 0⟩

def init (answers : Answers) : Machine → Machine × List Call
  | .scheduler s => (s.init answers).map .scheduler id
  | .broadcaster _ => (.broadcaster .idle, [])
  | .distance s => (Distance.init s answers).map .distance id
  | .servo _ => (ServoState.start answers).map .servo id
  | .temperatureHumidity _ => (.temperatureHumidity (if answers.initOk then .idle else .error), [])
  | .gps s => (s.init answers).map .gps id

/-- `util_fsm_send_event`. -/
def dispatch (answers : Answers) (event : Event) : Machine → Machine × List Call
  | .scheduler s => (s.dispatch event).map .scheduler id
  | .broadcaster s => (.broadcaster s, [])
  | .distance s => (Distance.dispatch answers s event).map .distance id
  | .servo s => (s.dispatch event).map .servo id
  | .temperatureHumidity s => (.temperatureHumidity s, [])
  | .gps s => (s.dispatch answers event).map .gps id

end Machine

/-- The subscriptions of `ddl_init` and `app_init`: no two of them match one event. -/
def subscribed : Module → Event → Bool
  | .scheduler, .start => true
  | .broadcaster, .update => true
  | .distance, .read => true
  | .servo, .scan => true
  | .servo, .directions => true
  | .servo, .noiseDetected => true
  | .servo, .lock => true
  | .temperatureHumidity, .read => true
  | .gps, .read => true
  | _, _ => false

end SnipeIt.ActiveObject
