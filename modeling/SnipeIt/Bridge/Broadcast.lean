import SnipeIt.Bridge.Messages
import SnipeIt.Ddl.DdlFrame
import SnipeIt.Support.Relay

/-! # From the sensors to the snapshot (`broadcaster_fsm.c`)

The sensors store their values field by field in threads of their own, the
broadcaster copies the frame field by field in another, and the bridge prints the
copy. There is no lock, and a field is stored and loaded at once.
-/

namespace SnipeIt.Bridge
open Support Ddl

inductive DdlField where
  | distValid | distance | status | precision | strength
  | tempHumValid | humidity | temperature
  | horAngle | verAngle
  | latitude | longitude | altitude | hAcc | gpsValid | fixType | numSatellites
  deriving DecidableEq

def DdlField.Value : DdlField → Type
  | .distValid | .tempHumValid | .gpsValid => Bool
  | .status | .precision | .fixType | .numSatellites => UInt8
  | .strength => UInt16
  | _ => ℚ

/-- `ddl_frame` and `ddl_snapshot` before anything is stored. -/
def blank : ∀ i : DdlField, i.Value
  | .distValid | .tempHumValid | .gpsValid => false
  | .status | .precision | .fixType | .numSatellites => (0 : UInt8)
  | .strength => (0 : UInt16)
  | .distance | .humidity | .temperature | .horAngle | .verAngle | .latitude | .longitude
  | .altitude | .hAcc => (0 : ℚ)

def frameOf (v : ∀ i : DdlField, i.Value) : DDLFrame where
  distFrame := ⟨v .distValid, v .distance, v .status, v .precision, v .strength⟩
  tempHumFrame := ⟨v .tempHumValid, v .humidity, v .temperature⟩
  servoFrame := ⟨v .horAngle, v .verAngle⟩
  gpsFrame :=
    ⟨v .latitude, v .longitude, v .altitude, v .hAcc, v .gpsValid, v .fixType, v .numSatellites⟩

def copyFrame : List DdlField :=
  [.distValid, .distance, .status, .precision, .strength, .tempHumValid, .humidity, .temperature,
    .horAngle, .verAngle, .latitude, .longitude, .altitude, .hAcc, .gpsValid, .fixType,
    .numSatellites]

theorem mem_copyFrame (i : DdlField) : i ∈ copyFrame := by
  cases i <;> decide

/-! ## What the sensors store -/

/-- From a response that the distance sensor's module has accepted. -/
def FromDistance (d : DistanceFrame) : Prop :=
  ∃ order aobj frame, TOFSense.isFrameValid order frame aobj.systemTime = true ∧
    d = (TOFSense.updateDistanceFrame order aobj frame).frame

/-- From a response with the right parity. -/
def FromTemperatureHumidity (th : TemperatureHumidityFrame) : Prop :=
  ∃ valid, ∃ frame : Am2302.TempHumFrame, Am2302.parityCheck frame = true ∧
    th = frame.frame valid

/-- From a message that the GPS module has accepted. -/
def FromGps (g : GPSFrame) : Prop :=
  ∃ order aobj frame, UbxNavPvt.isFrameValid order frame aobj.systemTime = true ∧
    g = (UbxNavPvt.updateGpsFrame order aobj frame).frame

/-- From a run of the servos. -/
def FromServo (s : ServoFrame) : Prop :=
  ∃ hor ver acts t, Run Servo.Step (Servo.created hor ver) acts t ∧ s = t.servoFrame

/-- What a module may store in a field. The flags are stored by themselves. -/
def Stored : (i : DdlField) → i.Value → Prop
  | .distance, v => ∃ d, FromDistance d ∧ v = d.distance
  | .status, v => ∃ d, FromDistance d ∧ v = d.status
  | .precision, v => ∃ d, FromDistance d ∧ v = d.precision
  | .strength, v => ∃ d, FromDistance d ∧ v = d.strength
  | .humidity, v => ∃ th, FromTemperatureHumidity th ∧ v = th.humidity
  | .temperature, v => ∃ th, FromTemperatureHumidity th ∧ v = th.temperature
  | .horAngle, v => ∃ s, FromServo s ∧ v = s.horAngle
  | .verAngle, v => ∃ s, FromServo s ∧ v = s.verAngle
  | .latitude, v => ∃ g, FromGps g ∧ v = g.latitude
  | .longitude, v => ∃ g, FromGps g ∧ v = g.longitude
  | .altitude, v => ∃ g, FromGps g ∧ v = g.altitude
  | .hAcc, v => ∃ g, FromGps g ∧ v = g.hAcc
  | .fixType, v => ∃ g, FromGps g ∧ v = g.fixType
  | .numSatellites, v => ∃ g, FromGps g ∧ v = g.numSatellites
  | .distValid, _ | .tempHumValid, _ | .gpsValid, _ => True

/-- A value that was stored, or the one before. -/
def Measured (i : DdlField) (v : i.Value) : Prop := v = blank i ∨ Stored i v

theorem FromDistance.inRange {d : DistanceFrame} (h : FromDistance d) : d.InRange := by
  obtain ⟨order, aobj, frame, -, rfl⟩ := h
  exact updateDistanceFrame_inRange order aobj frame

theorem FromTemperatureHumidity.inRange {th : TemperatureHumidityFrame}
    (h : FromTemperatureHumidity th) : th.InRange := by
  obtain ⟨valid, frame, -, rfl⟩ := h
  exact decodeFrame_inRange valid frame

theorem FromGps.inRange {g : GPSFrame} (h : FromGps g) : g.InRange := by
  obtain ⟨order, aobj, frame, -, rfl⟩ := h
  exact updateGpsFrame_inRange order aobj frame

theorem FromServo.inRange {s : ServoFrame} (h : FromServo s) : s.InRange := by
  obtain ⟨hor, ver, acts, t, hrun, rfl⟩ := h
  exact Servo.run_servoFrame_inRange hrun

/-- The ranges are of single fields, so a frame of different times is in range, too. -/
theorem frameOf_inRange {v : ∀ i : DdlField, i.Value} (h : ∀ i, Measured i (v i)) :
    (frameOf v).InRange := by
  have hfield {α : Type} {P : α → Prop} {read : α → ℚ} {Q : ℚ → Prop} {x : ℚ} (hzero : Q 0)
      (hP : ∀ a, P a → Q (read a)) (hx : x = 0 ∨ ∃ a, P a ∧ x = read a) : Q x := by
    rcases hx with rfl | ⟨a, ha, rfl⟩
    · exact hzero
    · exact hP a ha
  refine ⟨?_, ⟨?_, ?_⟩, ⟨?_, ?_⟩, ⟨?_, ?_, ?_, ?_⟩⟩
  · exact hfield (Q := fun x => 0 ≤ x ∧ x ≤ (2 ^ 24 - 1) / 1000) (by norm_num)
      (fun _ hd => hd.inRange) (h .distance)
  · exact hfield (Q := fun x => 0 ≤ x ∧ x ≤ (2 ^ 16 - 1) / 10) (by norm_num)
      (fun _ hth => hth.inRange.humidity) (h .humidity)
  · exact hfield (Q := fun x => |x| ≤ (2 ^ 15 - 1) / 10) (by norm_num)
      (fun _ hth => hth.inRange.temperature) (h .temperature)
  · exact hfield (Q := fun x => 0 ≤ x ∧ x ≤ 180) (by norm_num)
      (fun _ hs => hs.inRange.horAngle) (h .horAngle)
  · exact hfield (Q := fun x => 0 ≤ x ∧ x ≤ 180) (by norm_num)
      (fun _ hs => hs.inRange.verAngle) (h .verAngle)
  · exact hfield (Q := fun x => |x| ≤ 2 ^ 31 * (1 / 10000000)) (by norm_num)
      (fun _ hg => hg.inRange.latitude) (h .latitude)
  · exact hfield (Q := fun x => |x| ≤ 2 ^ 31 * (1 / 10000000)) (by norm_num)
      (fun _ hg => hg.inRange.longitude) (h .longitude)
  · exact hfield (Q := fun x => |x| ≤ 2 ^ 31 / 1000) (by norm_num)
      (fun _ hg => hg.inRange.altitude) (h .altitude)
  · exact hfield (Q := fun x => 0 ≤ x ∧ x ≤ (2 ^ 32 - 1) / 1000) (by norm_num)
      (fun _ hg => hg.inRange.hAcc) (h .hAcc)

/-! ## The snapshot -/

theorem seen_measured {readOrder : List DdlField} (hall : ∀ i, i ∈ readOrder)
    {acts : List (RelayAct DdlField.Value)} {s : Relay DdlField.Value}
    (h : Run (Relay.Step copyFrame readOrder) (Relay.start blank) acts s)
    (hacts : ∀ a ∈ acts, Relay.Stores Stored a) (hread : s.toRead = []) (i : DdlField) :
    s.seen i ∈ s.allowed i ∧ Measured i (s.seen i) := by
  have hseen := Relay.run_seen mem_copyFrame hall h hread i
  have hstores : ∀ a ∈ acts, Relay.Stores Measured a := by
    intro a ha
    have hstored := hacts a ha
    cases a with
    | store i v => exact .inr hstored
    | _ => trivial
  exact ⟨hseen, Relay.run_allowed mem_copyFrame hall (fun i => .inl rfl) hstores h i _ hseen⟩

/-- Whatever the interleaving of the threads, and in whatever order the bridge reads the fields,
the snapshot holds in every field a value that was measured and that the field has held since the
beginning of the last whole copy before the snapshot; it fits the buffer, and the phone reads it. -/
theorem snapshot_measured {readOrder : List DdlField} (hall : ∀ i, i ∈ readOrder)
    {acts : List (RelayAct DdlField.Value)} {s : Relay DdlField.Value}
    (h : Run (Relay.Step copyFrame readOrder) (Relay.start blank) acts s)
    (hacts : ∀ a ∈ acts, Relay.Stores Stored a) (hread : s.toRead = []) {now : UInt64}
    (hnow : now.toNat < 2 ^ 63) (time : ℤ) :
    (∀ i, s.seen i ∈ s.allowed i ∧ Measured i (s.seen i)) ∧
      (buildJson (frameOf s.seen) now).length < bufSize ∧
      Phone.handleWebSocketMessage time (jsonText (frameOf s.seen) now) =
        some (.sensorData (received (frameOf s.seen) now)) := by
  have hseen := seen_measured hall h hacts hread
  refine ⟨hseen, ?_, handle_snapshot _ hnow time⟩
  exact (length_buildJson (frameOf_inRange fun i => (hseen i).2) now).2

def someReading : TOFSenseReading := ⟨0, 36766, 2221, 0, 3, 6⟩

theorem stored_someReading : Stored .distance (2221 / 1000 : ℚ) := by
  refine ⟨_, ⟨.little, ⟨false, ⟨0, 0, 0, 0⟩, 0, 0⟩, someReading.encode, ?_, rfl⟩, ?_⟩
  · rw [TOFSense.isFrameValid_eq, TOFSenseReading.encode_isFrameValid]
    decide
  · rw [TOFSenseReading.updateDistanceFrame_encode]
    rfl

/-- The distance is stored in the middle of a copy, and then everything is read. -/
def storedMeanwhile : List (RelayAct DdlField.Value) :=
  [.beginCopy, .copy, .store .distance (2221 / 1000 : ℚ)] ++ List.replicate 16 .copy ++
    [.beginRead] ++ List.replicate 17 .read

theorem snapshot_measured_meanwhile : ∃ s,
    Run (Relay.Step copyFrame copyFrame) (Relay.start blank) storedMeanwhile s ∧
      s.seen .distance = (2221 / 1000 : ℚ) ∧
      (∀ i, s.seen i ∈ s.allowed i ∧ Measured i (s.seen i)) ∧
      (buildJson (frameOf s.seen) 5).length < bufSize ∧
      Phone.handleWebSocketMessage 0 (jsonText (frameOf s.seen) 5) =
        some (.sensorData (received (frameOf s.seen) 5)) := by
  have hstores : ∀ a ∈ storedMeanwhile, Relay.Stores Stored a := by
    simp only [storedMeanwhile, List.mem_append, List.mem_cons, List.mem_replicate,
      List.not_mem_nil, or_false]
    rintro a ((((rfl | rfl | rfl) | ⟨-, rfl⟩) | rfl) | ⟨-, rfl⟩)
    · trivial
    · trivial
    · exact stored_someReading
    · trivial
    · trivial
    · trivial
  obtain ⟨s, hs⟩ : ∃ s, exec (Relay.apply copyFrame copyFrame) (Relay.start blank) storedMeanwhile =
    some s := ⟨_, rfl⟩
  have hseen : (some s).map (fun s => (s.toRead, s.seen .distance)) =
      some ([], (2221 / 1000 : ℚ)) := by
    rw [← hs]
    rfl
  obtain ⟨hread, hdistance⟩ := Prod.mk.inj (Option.some.inj hseen)
  have hrun := Run.of_exec hs
  exact ⟨s, hrun, hdistance, snapshot_measured mem_copyFrame hrun hstores hread (by decide) 0⟩

end SnipeIt.Bridge
