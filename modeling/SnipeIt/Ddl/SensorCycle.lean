import SnipeIt.ActiveObject.Machines
import SnipeIt.Ddl.Frames

/-! # The read cycle of a sensor

The distance and the GPS machine with their measurements: an event finds the
response buffer with any content. A cycle is what happens between the `READ`
that is taken in the idle state and the return to it.
-/

namespace SnipeIt.Ddl
open ActiveObject Hal

/-- `DistanceObject` and `GPSObject`, without their thread, queue and timer. -/
structure SensorObject (μ : Type*) extends Sensor where
  measurement : μ
  systemTime : UInt32

namespace SensorObject

variable {β μ : Type*} (codec : Codec β μ) (device : Device)

def withSensor (s : SensorObject μ) (result : Sensor × List Call) : SensorObject μ × List Call :=
  ({ s with toSensor := result.1 }, result.2)

def updateFrame (content : β) (s : SensorObject μ) : SensorObject μ where
  toSensor := { s.toSensor with valid := true }
  measurement := codec.measurement content
  systemTime := codec.systemTime content

def enterUpdate (content : β) (s : SensorObject μ) : SensorObject μ × List Call :=
  if codec.isFrameValid content s.systemTime then
    let t := s.updateFrame codec content
    t.withSensor (t.enterIdle, [])
  else s.withSensor (Sensor.retryHandler device { s.toSensor with state := .update })

def dispatch (content : β) (s : SensorObject μ) : Event → SensorObject μ × List Call
  | .read =>
    match s.state with
    | .idle => s.withSensor (s.enterRead device)
    | _ => (s, [])
  | .frameReceived =>
    match s.state with
    | .read =>
      let (t, calls) := s.enterUpdate codec device content
      (t, .timerDisarm :: calls)
    | _ => (s, [])
  | .timeout =>
    match s.state with
    | .read =>
      let (t, calls) := s.retryHandler device
      s.withSensor (t, .uartAbort device :: .timerDisarm :: calls)
    | _ => (s, [])
  | _ => (s, [])

/-- The event makes the update state accept the frame in the buffer. -/
def accepts (content : β) (s : SensorObject μ) (event : Event) : Bool :=
  event = .frameReceived && s.state = .read && codec.isFrameValid content s.systemTime

/-- Without the measurement this is the machine of the active object, which is told whether the
frame is valid. -/
theorem dispatch_sensor (initOk : Bool) (content : β) (s : SensorObject μ) (event : Event) :
    ((s.dispatch codec device content event).1.toSensor,
      (s.dispatch codec device content event).2) =
      s.toSensor.dispatch device ⟨initOk, codec.isFrameValid content s.systemTime⟩ event := by
  cases event with
  | read => cases h : s.state <;> simp [dispatch, Sensor.dispatch, h, withSensor]
  | timeout => cases h : s.state <;> simp [dispatch, Sensor.dispatch, h, withSensor]
  | frameReceived =>
    cases h : s.state with
    | read =>
      simp only [dispatch, Sensor.dispatch, h, enterUpdate, Sensor.enterUpdate]
      split_ifs <;> rfl
    | _ => simp [dispatch, Sensor.dispatch, h]
  | _ => rfl

/-- The measurement and its time only change with a frame that is accepted. -/
theorem dispatch_measurement (content : β) (s : SensorObject μ) (event : Event)
    (h : s.accepts codec content event = false) :
    (s.dispatch codec device content event).1.measurement = s.measurement ∧
      (s.dispatch codec device content event).1.systemTime = s.systemTime := by
  cases event with
  | read => cases hstate : s.state <;> simp [dispatch, hstate, withSensor]
  | timeout => cases hstate : s.state <;> simp [dispatch, hstate, withSensor]
  | frameReceived =>
    cases hstate : s.state with
    | read =>
      have hinvalid : codec.isFrameValid content s.systemTime = false := by
        simpa [accepts, hstate] using h
      simp [dispatch, hstate, enterUpdate, hinvalid, withSensor]
    | _ => simp [dispatch, hstate]
  | _ => exact ⟨rfl, rfl⟩

end SensorObject

/-! ## Cycles -/

/-- A cycle that has come back to the idle state: how often it entered the read state, whether it
accepted a frame, and the valid flag at its end. -/
structure Finished where
  entries : ℕ
  accepted : Bool
  valid : Bool

/-- What has happened in the cycle so far, and the cycles before it. -/
structure Cycles where
  entries : ℕ
  accepted : Bool
  finished : List Finished

/-- How often the read state was entered, which arms the timer each time. -/
def readEntries (calls : List Call) : ℕ := calls.count (.timerArm .once)

def Cycles.note (c : Cycles) (before after : Sensor) (calls : List Call) (accepted : Bool) :
    Cycles :=
  let entries := (if before.state = .read then c.entries else 0) + readEntries calls
  let accepted := (decide (before.state = .read) && c.accepted) || accepted
  { entries, accepted
    finished :=
      if before.state = .read ∧ after.state = .idle then
        c.finished ++ [⟨entries, accepted, after.valid⟩]
      else c.finished }

/-- The order of a cycle. -/
structure InOrder (s : Sensor) (c : Cycles) : Prop where
  idle : s.state = .idle → s.retry = 0
  read : s.state = .read →
    s.retry + 1 ≤ Sensor.readRetryMax ∧ c.entries = s.retry + 1 ∧ c.accepted = false
  update : s.state ≠ .update
  finished : ∀ f ∈ c.finished, f.entries ≤ Sensor.readRetryMax ∧ f.valid = f.accepted

/-- An event that is ignored, or that only configures, keeps the order. -/
theorem InOrder.ignored {s : Sensor} {c : Cycles} (h : InOrder s c) :
    InOrder s (c.note s s [] false) := by
  refine ⟨h.idle, fun hread => ?_, h.update, ?_⟩
  · obtain ⟨hretry, hentries, haccepted⟩ := h.read hread
    exact ⟨hretry, by simp [Cycles.note, hread, readEntries, hentries],
      by simp [Cycles.note, hread, haccepted]⟩
  · have hboth : ¬ (s.state = .read ∧ s.state = .idle) := by
      rintro ⟨hread, hidle⟩
      rw [hread] at hidle
      cases hidle
    simpa [Cycles.note, hboth] using h.finished

/-- An event that leads from the read state to the idle state finishes a cycle. -/
theorem Cycles.mem_finished {c : Cycles} {before after : Sensor} {calls : List Call}
    {accepted : Bool} (hread : before.state = .read) (hidle : after.state = .idle) {f : Finished}
    (hf : f ∈ (c.note before after calls accepted).finished) :
    f ∈ c.finished ∨ f = ⟨c.entries + readEntries calls, c.accepted || accepted, after.valid⟩ := by
  simp only [Cycles.note, hread, hidle, and_self, if_true, List.mem_append, List.mem_singleton,
    decide_true, Bool.true_and] at hf
  exact hf

/-- The end of an attempt: the next one, or the end of the cycle. -/
theorem InOrder.retry {s : Sensor} {c : Cycles} (h : InOrder s c) (hread : s.state = .read)
    (device : Device) (state : SensorState) (calls : List Call) (hcalls : readEntries calls = 0) :
    InOrder (({ s with state } : Sensor).retryHandler device).1
      (c.note s (({ s with state } : Sensor).retryHandler device).1
        (calls ++ (({ s with state } : Sensor).retryHandler device).2) false) := by
  obtain ⟨hretry, hentries, haccepted⟩ := h.read hread
  unfold readEntries at hcalls
  unfold Sensor.retryHandler
  dsimp only
  split_ifs with hmore
  · refine ⟨(fun h => by cases h), fun _ => ⟨hmore, ?_, ?_⟩, (fun h => by cases h), ?_⟩
    · simp [Cycles.note, hread, readEntries, List.count_append, hcalls, hentries, Sensor.enterRead]
    · simp [Cycles.note, haccepted]
    · simpa [Cycles.note, Sensor.enterRead] using h.finished
  · refine ⟨fun _ => rfl, (fun h => by cases h), (fun h => by cases h), fun f hf => ?_⟩
    rcases Cycles.mem_finished hread rfl hf with hold | rfl
    · exact h.finished f hold
    · refine ⟨?_, by simp [haccepted, Sensor.enterIdle]⟩
      simp only [readEntries, List.append_nil, hcalls, hentries, Nat.add_zero]
      exact hretry

theorem InOrder.dispatch {s : Sensor} {c : Cycles} (h : InOrder s c) (device : Device)
    (answers : Answers) (event : Event) :
    InOrder (s.dispatch device answers event).1
      (c.note s (s.dispatch device answers event).1 (s.dispatch device answers event).2
        (decide (event = .frameReceived) && decide (s.state = .read) && answers.frameValid)) := by
  cases event with
  | read =>
    cases hstate : s.state with
    | idle =>
      have hretry := h.idle hstate
      simp only [Sensor.dispatch, hstate]
      refine ⟨(fun h => by cases h), fun _ => ?_, (fun h => by cases h), ?_⟩
      · simp [Cycles.note, hstate, Sensor.enterRead, hretry, readEntries,
          Sensor.readRetryMax]
      · simpa [Cycles.note, hstate] using h.finished
    | _ => simpa [Sensor.dispatch, hstate] using h.ignored
  | timeout =>
    by_cases hread : s.state = .read
    · have hsame : ({ s with state := .read } : Sensor) = s := by rw [← hread]
      have hretry := h.retry hread device .read [.uartAbort device, .timerDisarm] rfl
      simp only [Sensor.dispatch, hread]
      rw [hsame] at hretry
      simpa using hretry
    · cases hstate : s.state with
      | read => exact absurd hstate hread
      | _ => simpa [Sensor.dispatch, hstate] using h.ignored
  | frameReceived =>
    by_cases hread : s.state = .read
    · cases hvalid : answers.frameValid with
      | true =>
        obtain ⟨hretry, hentries, -⟩ := h.read hread
        simp only [Sensor.dispatch, hread, Sensor.enterUpdate, hvalid, if_true]
        refine ⟨fun _ => rfl, (fun h => by cases h), (fun h => by cases h), fun f hf => ?_⟩
        rcases Cycles.mem_finished hread rfl hf with hold | rfl
        · exact h.finished f hold
        · refine ⟨?_, by simp [Sensor.enterIdle]⟩
          simpa [readEntries, Sensor.enterIdle, hentries] using hretry
      | false =>
        have hretry := h.retry hread device .update [.timerDisarm] rfl
        simp only [Sensor.dispatch, hread, Sensor.enterUpdate, hvalid]
        simpa using hretry
    · cases hstate : s.state with
      | read => exact absurd hstate hread
      | _ => simpa [Sensor.dispatch, hstate] using h.ignored
  | _ => exact h.ignored

section

variable {F D : Type*} (floats : Floats F D)

def distanceReady (initOk : Bool) (measurement : DistanceMeasurement F) (systemTime : UInt32) :
    SensorObject (DistanceMeasurement F) where
  toSensor := (Distance.init ⟨.init, 0, false⟩ ⟨initOk, false⟩).1
  measurement := measurement
  systemTime := systemTime

/-- An event for the distance machine, with the response buffer that it finds. -/
def distanceTurn (w : SensorObject (DistanceMeasurement F) × Cycles)
    (turn : Event × TOFSenseFrame) : SensorObject (DistanceMeasurement F) × Cycles :=
  let (t, calls) := w.1.dispatch (distanceCodec floats) Distance.device turn.2 turn.1
  (t, w.2.note w.1.toSensor t.toSensor calls (w.1.accepts (distanceCodec floats) turn.2 turn.1))

theorem distanceTurn_inOrder {w : SensorObject (DistanceMeasurement F) × Cycles}
    (h : InOrder w.1.toSensor w.2) (turn : Event × TOFSenseFrame) :
    InOrder (distanceTurn floats w turn).1.toSensor (distanceTurn floats w turn).2 := by
  have hdispatch := h.dispatch Distance.device
    ⟨true, (distanceCodec floats).isFrameValid turn.2 w.1.systemTime⟩ turn.1
  rw [← SensorObject.dispatch_sensor] at hdispatch
  exact hdispatch

theorem distanceTurns_inOrder (turns : List (Event × TOFSenseFrame))
    {w : SensorObject (DistanceMeasurement F) × Cycles} (h : InOrder w.1.toSensor w.2) :
    InOrder (turns.foldl (distanceTurn floats) w).1.toSensor
      (turns.foldl (distanceTurn floats) w).2 := by
  induction turns generalizing w with
  | nil => exact h
  | cons turn turns ih => exact ih (distanceTurn_inOrder floats h turn)

/-! ## GPS -/

structure GpsObject (μ : Type*) where
  object : SensorObject μ
  configStep : ℕ

/-- `gps_init_state` and the handlers of the other states. -/
def GpsObject.dispatch {β μ : Type*} (codec : Codec β μ) (content : β) (s : GpsObject μ)
    (event : Event) : GpsObject μ × List Call :=
  if s.object.state = .init then
    match event with
    | .configured =>
      let (t, calls) := Gps.configured ⟨s.object.toSensor, s.configStep⟩
      ({ object := { s.object with toSensor := t.sensor }, configStep := t.configStep }, calls)
    | _ => (s, [])
  else
    let (t, calls) := s.object.dispatch codec Gps.device content event
    ({ s with object := t }, calls)

/-- Without the measurement this is the machine of the active object. -/
theorem GpsObject.dispatch_gps {β μ : Type*} (codec : Codec β μ) (initOk : Bool) (content : β)
    (s : GpsObject μ) (event : Event) :
    ((⟨(s.dispatch codec content event).1.object.toSensor,
        (s.dispatch codec content event).1.configStep⟩ : Gps),
      (s.dispatch codec content event).2) =
      Gps.dispatch ⟨initOk, codec.isFrameValid content s.object.systemTime⟩
        ⟨s.object.toSensor, s.configStep⟩ event := by
  unfold GpsObject.dispatch Gps.dispatch
  dsimp only
  split_ifs with hinit
  · cases event <;> rfl
  · have hsensor := s.object.dispatch_sensor codec Gps.device initOk content event
    rw [← hsensor]

/-- The GPS machine after its initialisation, which makes the first configuration write. -/
def gpsReady (initOk : Bool) (measurement : GpsMeasurement F D) (systemTime : UInt32) :
    GpsObject (GpsMeasurement F D) where
  object :=
    { toSensor := (Gps.init ⟨⟨.init, 0, false⟩, 0⟩ ⟨initOk, false⟩).1.sensor
      measurement := measurement
      systemTime := systemTime }
  configStep := (Gps.init ⟨⟨.init, 0, false⟩, 0⟩ ⟨initOk, false⟩).1.configStep

/-- An event for the GPS machine, with the response buffer that it finds. -/
def gpsTurn (w : GpsObject (GpsMeasurement F D) × Cycles) (turn : Event × UbxNavPvtFrame) :
    GpsObject (GpsMeasurement F D) × Cycles :=
  let (t, calls) := w.1.dispatch (gpsCodec floats) turn.2 turn.1
  (t, w.2.note w.1.object.toSensor t.object.toSensor calls
    (w.1.object.accepts (gpsCodec floats) turn.2 turn.1))

theorem InOrder.configured {s : Gps} {c : Cycles} (h : InOrder s.sensor c)
    (hinit : s.sensor.state = .init) :
    InOrder s.configured.1.sensor
      (c.note s.sensor s.configured.1.sensor s.configured.2 false) := by
  unfold Gps.configured
  dsimp only
  split_ifs
  · refine ⟨h.idle, fun hread => ?_, h.update, ?_⟩
    · rw [hinit] at hread
      cases hread
    · simpa [Cycles.note, hinit] using h.finished
  · refine ⟨fun _ => rfl, (fun h => by cases h), (fun h => by cases h), ?_⟩
    simpa [Cycles.note, hinit] using h.finished

theorem gpsTurn_inOrder {w : GpsObject (GpsMeasurement F D) × Cycles}
    (h : InOrder w.1.object.toSensor w.2) (turn : Event × UbxNavPvtFrame) :
    InOrder (gpsTurn floats w turn).1.object.toSensor (gpsTurn floats w turn).2 := by
  by_cases hinit : w.1.object.state = .init
  · have haccepts : w.1.object.accepts (gpsCodec floats) turn.2 turn.1 = false := by
      simp [SensorObject.accepts, hinit]
    simp only [gpsTurn, GpsObject.dispatch, if_pos hinit, haccepts]
    cases turn.1 with
    | configured => exact InOrder.configured (s := ⟨w.1.object.toSensor, w.1.configStep⟩) h hinit
    | _ => exact h.ignored
  · have hdispatch := h.dispatch Gps.device
      ⟨true, (gpsCodec floats).isFrameValid turn.2 w.1.object.systemTime⟩ turn.1
    rw [← SensorObject.dispatch_sensor] at hdispatch
    simp only [gpsTurn, GpsObject.dispatch, if_neg hinit]
    exact hdispatch

theorem gpsTurns_inOrder (turns : List (Event × UbxNavPvtFrame))
    {w : GpsObject (GpsMeasurement F D) × Cycles} (h : InOrder w.1.object.toSensor w.2) :
    InOrder (turns.foldl (gpsTurn floats) w).1.object.toSensor
      (turns.foldl (gpsTurn floats) w).2 := by
  induction turns generalizing w with
  | nil => exact h
  | cons turn turns ih => exact ih (gpsTurn_inOrder floats h turn)

theorem gpsTurn_measurement {w : GpsObject (GpsMeasurement F D) × Cycles}
    {turn : Event × UbxNavPvtFrame}
    (h : w.1.object.accepts (gpsCodec floats) turn.2 turn.1 = false) :
    (gpsTurn floats w turn).1.object.measurement = w.1.object.measurement ∧
      (gpsTurn floats w turn).1.object.systemTime = w.1.object.systemTime := by
  unfold gpsTurn GpsObject.dispatch
  split_ifs
  · cases turn.1 <;> exact ⟨rfl, rfl⟩
  · exact w.1.object.dispatch_measurement (gpsCodec floats) Gps.device turn.2 turn.1 h

/-- No cycle yet. -/
def Cycles.none : Cycles := ⟨0, false, []⟩

/-- The read cycle: whatever events are dispatched to the distance and to the GPS machine after
their initialisation, and whatever is in the response buffer, the cycles are in order, and an event
that does not make the machine accept a frame leaves the measurement and its time alone. -/
theorem read_cycle_in_order (initOk : Bool) (distanceMeasurement : DistanceMeasurement F)
    (gpsMeasurement : GpsMeasurement F D) (systemTime : UInt32)
    (distanceTurns : List (Event × TOFSenseFrame)) (gpsTurns : List (Event × UbxNavPvtFrame)) :
    let w := distanceTurns.foldl (distanceTurn floats)
      (distanceReady initOk distanceMeasurement systemTime, .none)
    let v := gpsTurns.foldl (gpsTurn floats) (gpsReady initOk gpsMeasurement systemTime, .none)
    (InOrder w.1.toSensor w.2 ∧ ∀ turn,
      w.1.accepts (distanceCodec floats) turn.2 turn.1 = false →
        (distanceTurn floats w turn).1.measurement = w.1.measurement ∧
        (distanceTurn floats w turn).1.systemTime = w.1.systemTime) ∧
    (InOrder v.1.object.toSensor v.2 ∧ ∀ turn,
      v.1.object.accepts (gpsCodec floats) turn.2 turn.1 = false →
        (gpsTurn floats v turn).1.object.measurement = v.1.object.measurement ∧
        (gpsTurn floats v turn).1.object.systemTime = v.1.object.systemTime) := by
  intro w v
  refine ⟨⟨distanceTurns_inOrder floats distanceTurns ?_, fun turn h => ?_⟩,
    gpsTurns_inOrder floats gpsTurns ?_, fun turn h => gpsTurn_measurement floats h⟩
  · cases initOk with
    | true => exact ⟨fun _ => rfl, nofun, nofun, nofun⟩
    | false => exact ⟨nofun, nofun, nofun, nofun⟩
  · exact w.1.dispatch_measurement (distanceCodec floats) Distance.device turn.2 turn.1 h
  · cases initOk with
    | true => exact ⟨nofun, nofun, nofun, nofun⟩
    | false => exact ⟨nofun, nofun, nofun, nofun⟩

end

end SnipeIt.Ddl
