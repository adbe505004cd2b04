import SnipeIt.Ddl.DdlFrame
import SnipeIt.Phone.SensorData
import SnipeIt.Support.JsonText

/-! # The message of the sensors (`ddl_bridge.c`)

The bridge prints the latest frame into a buffer and hands it to the server. The
phone fills its classes from the text.
-/

namespace SnipeIt.Bridge
open Support Json Ddl
open Phone (property nullable readString readBoolean readInt readLong readNumber property_string
  property_bool property_integer property_fixed property_nullable)

/-! ## Printing -/

/-- The format `%s` of a flag. -/
def flag (b : Bool) : List Char := (if b then "true" else "false").toList

def unsigned (n : ℕ) : List Char := printInt false n

def jsonText (f : DDLFrame) (now : UInt64) : List Char :=
  let d := f.distFrame
  let th := f.tempHumFrame
  let s := f.servoFrame
  let g := f.gpsFrame
  "\x7b".toList ++
    "\"type\":\"sensor_data\",".toList ++
    "\"timestamp\":".toList ++ unsigned now.toNat ++ ",".toList ++
    "\"ddl_frame\":\x7b".toList ++
      "\"distance\":\x7b".toList ++
        "\"valid\":".toList ++ flag d.valid ++ ",".toList ++
        "\"distance_m\":".toList ++ Decimal.fixed 2 d.distance ++ ",".toList ++
        "\"status\":".toList ++ unsigned d.status.toNat ++ ",".toList ++
        "\"precision\":".toList ++ unsigned d.precision.toNat ++ ",".toList ++
        "\"strength\":".toList ++ unsigned d.strength.toNat ++
      "\x7d,".toList ++
      "\"temperature_humidity\":\x7b".toList ++
        "\"valid\":".toList ++ flag th.valid ++ ",".toList ++
        "\"temperature_c\":".toList ++ Decimal.fixed 2 th.temperature ++ ",".toList ++
        "\"humidity_pct\":".toList ++ Decimal.fixed 2 th.humidity ++
      "\x7d,".toList ++
      "\"servo\":\x7b".toList ++
        "\"horizontal_deg\":".toList ++ Decimal.fixed 2 s.horAngle ++ ",".toList ++
        "\"vertical_deg\":".toList ++ Decimal.fixed 2 s.verAngle ++
      "\x7d,".toList ++
      "\"gps\":\x7b".toList ++
        "\"valid\":".toList ++ flag g.valid ++ ",".toList ++
        "\"fix_type\":".toList ++ unsigned g.fixType.toNat ++ ",".toList ++
        "\"num_satellites\":".toList ++ unsigned g.numSatellites.toNat ++ ",".toList ++
        "\"latitude_deg\":".toList ++ Decimal.fixed 7 g.latitude ++ ",".toList ++
        "\"longitude_deg\":".toList ++ Decimal.fixed 7 g.longitude ++ ",".toList ++
        "\"altitude_m\":".toList ++ Decimal.fixed 2 g.altitude ++ ",".toList ++
        "\"h_acc_m\":".toList ++ Decimal.fixed 2 g.hAcc ++
      "\x7d".toList ++
    "\x7d".toList ++
  "\x7d".toList

def buildJson (f : DDLFrame) (now : UInt64) : List UInt8 := Utf8.encode (jsonText f now)

def bufSize : ℕ := 1024

structure TickingBridge where
  periodMs : UInt32
  lastEmitMs : UInt64
  schedulerStarted : Bool

/-- `ddl_bridge_tick` with what it passes to `ws_send_json`. It finds a client or none, the two
clocks, and the frame. -/
def ddlBridgeTick (b : TickingBridge) (clientConnected : Bool) (t now : UInt64)
    (snap : Option DDLFrame) : TickingBridge × Option (List UInt8) :=
  if b.schedulerStarted = false then (b, none)
  else if clientConnected = false then (b, none)
  else if b.lastEmitMs ≠ 0 ∧ t - b.lastEmitMs < b.periodMs.toUInt64 then (b, none)
  else
    ({ b with lastEmitMs := t }, snap.bind fun f =>
      let buf := buildJson f now
      if buf.length = 0 ∨ bufSize ≤ buf.length then none else some buf)

/-! ## The members -/

def distanceFields (d : DistanceFrame) : List Field :=
  [.bool "valid".toList (by decide) d.valid,
    .fixed "distance_m".toList (by decide) 2 d.distance,
    .nat "status".toList (by decide) d.status.toNat,
    .nat "precision".toList (by decide) d.precision.toNat,
    .nat "strength".toList (by decide) d.strength.toNat]

def temperatureHumidityFields (th : TemperatureHumidityFrame) : List Field :=
  [.bool "valid".toList (by decide) th.valid,
    .fixed "temperature_c".toList (by decide) 2 th.temperature,
    .fixed "humidity_pct".toList (by decide) 2 th.humidity]

def servoFields (s : ServoFrame) : List Field :=
  [.fixed "horizontal_deg".toList (by decide) 2 s.horAngle,
    .fixed "vertical_deg".toList (by decide) 2 s.verAngle]

def gpsFields (g : GPSFrame) : List Field :=
  [.bool "valid".toList (by decide) g.valid,
    .nat "fix_type".toList (by decide) g.fixType.toNat,
    .nat "num_satellites".toList (by decide) g.numSatellites.toNat,
    .fixed "latitude_deg".toList (by decide) 7 g.latitude,
    .fixed "longitude_deg".toList (by decide) 7 g.longitude,
    .fixed "altitude_m".toList (by decide) 2 g.altitude,
    .fixed "h_acc_m".toList (by decide) 2 g.hAcc]

theorem distanceFields_ne_nil (d : DistanceFrame) : distanceFields d ≠ [] := List.cons_ne_nil _ _

theorem temperatureHumidityFields_ne_nil (th : TemperatureHumidityFrame) :
    temperatureHumidityFields th ≠ [] := List.cons_ne_nil _ _

theorem servoFields_ne_nil (s : ServoFrame) : servoFields s ≠ [] := List.cons_ne_nil _ _

theorem gpsFields_ne_nil (g : GPSFrame) : gpsFields g ≠ [] := List.cons_ne_nil _ _

def ddlFrameFields (f : DDLFrame) : List Field :=
  [.object "distance".toList (by decide) _ (distanceFields_ne_nil f.distFrame),
    .object "temperature_humidity".toList (by decide) _
      (temperatureHumidityFields_ne_nil f.tempHumFrame),
    .object "servo".toList (by decide) _ (servoFields_ne_nil f.servoFrame),
    .object "gps".toList (by decide) _ (gpsFields_ne_nil f.gpsFrame)]

theorem ddlFrameFields_ne_nil (f : DDLFrame) : ddlFrameFields f ≠ [] := List.cons_ne_nil _ _

def snapshotFields (f : DDLFrame) (now : UInt64) : List Field :=
  [.string "type".toList "sensor_data".toList (by decide) (by decide),
    .nat "timestamp".toList (by decide) now.toNat,
    .object "ddl_frame".toList (by decide) _ (ddlFrameFields_ne_nil f)]

theorem snapshotFields_ne_nil (f : DDLFrame) (now : UInt64) : snapshotFields f now ≠ [] :=
  List.cons_ne_nil _ _

theorem writtenFields_distance (d : DistanceFrame) (rest : List Char) :
    writtenFields (distanceFields d) rest =
      "\"valid\":".toList ++ (flag d.valid ++ (",".toList ++
        ("\"distance_m\":".toList ++ (Decimal.fixed 2 d.distance ++ (",".toList ++
          ("\"status\":".toList ++ (unsigned d.status.toNat ++ (",".toList ++
            ("\"precision\":".toList ++ (unsigned d.precision.toNat ++ (",".toList ++
              ("\"strength\":".toList ++ (unsigned d.strength.toNat ++
                ("\x7d".toList ++ rest)))))))))))))) := by
  unfold distanceFields
  simp [writtenFields, flag, unsigned]

theorem writtenFields_temperatureHumidity (th : TemperatureHumidityFrame) (rest : List Char) :
    writtenFields (temperatureHumidityFields th) rest =
      "\"valid\":".toList ++ (flag th.valid ++ (",".toList ++
        ("\"temperature_c\":".toList ++ (Decimal.fixed 2 th.temperature ++ (",".toList ++
          ("\"humidity_pct\":".toList ++ (Decimal.fixed 2 th.humidity ++
            ("\x7d".toList ++ rest)))))))) := by
  unfold temperatureHumidityFields
  simp [writtenFields, flag]

theorem writtenFields_servo (s : ServoFrame) (rest : List Char) :
    writtenFields (servoFields s) rest =
      "\"horizontal_deg\":".toList ++ (Decimal.fixed 2 s.horAngle ++ (",".toList ++
        ("\"vertical_deg\":".toList ++ (Decimal.fixed 2 s.verAngle ++
          ("\x7d".toList ++ rest))))) := by
  unfold servoFields
  simp [writtenFields]

theorem writtenFields_gps (g : GPSFrame) (rest : List Char) :
    writtenFields (gpsFields g) rest =
      "\"valid\":".toList ++ (flag g.valid ++ (",".toList ++
        ("\"fix_type\":".toList ++ (unsigned g.fixType.toNat ++ (",".toList ++
          ("\"num_satellites\":".toList ++ (unsigned g.numSatellites.toNat ++ (",".toList ++
            ("\"latitude_deg\":".toList ++ (Decimal.fixed 7 g.latitude ++ (",".toList ++
              ("\"longitude_deg\":".toList ++ (Decimal.fixed 7 g.longitude ++ (",".toList ++
                ("\"altitude_m\":".toList ++ (Decimal.fixed 2 g.altitude ++ (",".toList ++
                  ("\"h_acc_m\":".toList ++ (Decimal.fixed 2 g.hAcc ++
                    ("\x7d".toList ++ rest)))))))))))))))))))) := by
  unfold gpsFields
  simp [writtenFields, flag, unsigned]

theorem writtenFields_ddlFrame (f : DDLFrame) (rest : List Char) :
    writtenFields (ddlFrameFields f) rest =
      "\"distance\":\x7b".toList ++ writtenFields (distanceFields f.distFrame)
        (",\"temperature_humidity\":\x7b".toList ++
          writtenFields (temperatureHumidityFields f.tempHumFrame)
            (",\"servo\":\x7b".toList ++ writtenFields (servoFields f.servoFrame)
              (",\"gps\":\x7b".toList ++ writtenFields (gpsFields f.gpsFrame)
                ("\x7d".toList ++ rest)))) := by
  unfold ddlFrameFields
  simp [writtenFields]

theorem jsonText_eq (f : DDLFrame) (now : UInt64) :
    jsonText f now = objectText (snapshotFields f now) := by
  unfold jsonText snapshotFields
  simp only [objectText, writtenFields, Field.written_object, Field.written_string,
    Field.written_nat, writtenFields_ddlFrame, writtenFields_distance,
    writtenFields_temperatureHumidity, writtenFields_servo, writtenFields_gps, List.append_assoc]
  rfl

/-! ## The length -/

theorem printable_jsonText (f : DDLFrame) (now : UInt64) : Utf8.Printable (jsonText f now) := by
  have hflag (b : Bool) : Utf8.Printable (flag b) := by cases b <;> decide
  have hunsigned (n : ℕ) : Utf8.Printable (unsigned n) := printable_printInt false n
  unfold jsonText
  simp only [Utf8.printable_append, hflag, hunsigned, Decimal.printable_fixed, and_true]
  decide

theorem length_unsigned_le {n k : ℕ} (hk : 0 < k) (hn : n < 10 ^ k) :
    (unsigned n).length ≤ k + 1 := length_printInt_le false hk hn

theorem length_byte_le (b : UInt8) : (unsigned b.toNat).length ≤ 4 :=
  length_unsigned_le (by decide) (b.toNat_lt.trans (by decide))

theorem length_flag_le (b : Bool) : (flag b).length ≤ 5 := by cases b <;> decide

def Short (q : ℚ) : Prop := |q| ≤ (9999999999 : ℕ)

theorem Short.length_fixed_le {q : ℚ} (h : Short q) {places : ℕ} (hplaces : 0 < places) :
    (Decimal.fixed places q).length ≤ 10 + places + 2 :=
  Decimal.length_fixed_le hplaces (by decide) h (by decide)

theorem short_of_abs_le {q m : ℚ} (hq : |q| ≤ m) (hm : m ≤ (9999999999 : ℕ)) : Short q :=
  hq.trans hm

theorem short_of_le {q m : ℚ} (hq : 0 ≤ q ∧ q ≤ m) (hm : m ≤ (9999999999 : ℕ)) : Short q := by
  rw [Short, abs_of_nonneg hq.1]
  exact hq.2.trans hm

/-- All that a frame in range has to be printed is short. -/
theorem length_jsonText {f : DDLFrame} (hf : f.InRange) (now : UInt64) :
    0 < (jsonText f now).length ∧ (jsonText f now).length < bufSize := by
  obtain ⟨hd, hth, hs, hg⟩ := hf
  have hnow : (unsigned now.toNat).length ≤ 21 :=
    length_unsigned_le (by decide) (now.toNat_lt.trans (by decide))
  have hdistance := (short_of_le hd (by norm_num)).length_fixed_le (by decide : 0 < 2)
  have hstrength : (unsigned f.distFrame.strength.toNat).length ≤ 6 :=
    length_unsigned_le (by decide) (f.distFrame.strength.toNat_lt.trans (by decide))
  have hstatus := length_byte_le f.distFrame.status
  have hprecision := length_byte_le f.distFrame.precision
  have htemperature := (short_of_abs_le hth.temperature (by norm_num)).length_fixed_le
    (by decide : 0 < 2)
  have hhumidity := (short_of_le hth.humidity (by norm_num)).length_fixed_le (by decide : 0 < 2)
  have hhor := (short_of_le hs.horAngle (by norm_num)).length_fixed_le (by decide : 0 < 2)
  have hver := (short_of_le hs.verAngle (by norm_num)).length_fixed_le (by decide : 0 < 2)
  have hfix := length_byte_le f.gpsFrame.fixType
  have hsatellites := length_byte_le f.gpsFrame.numSatellites
  have hlatitude := (short_of_abs_le hg.latitude (by norm_num)).length_fixed_le
    (by decide : 0 < 7)
  have hlongitude := (short_of_abs_le hg.longitude (by norm_num)).length_fixed_le
    (by decide : 0 < 7)
  have haltitude := (short_of_abs_le hg.altitude (by norm_num)).length_fixed_le
    (by decide : 0 < 2)
  have hhAcc := (short_of_le hg.hAcc (by norm_num)).length_fixed_le (by decide : 0 < 2)
  have hvalid := length_flag_le f.distFrame.valid
  have hvalid' := length_flag_le f.tempHumFrame.valid
  have hvalid'' := length_flag_le f.gpsFrame.valid
  unfold jsonText bufSize
  simp only [List.length_append, String.reduceToList, List.length_cons, List.length_nil]
  omega

theorem length_buildJson {f : DDLFrame} (hf : f.InRange) (now : UInt64) :
    0 < (buildJson f now).length ∧ (buildJson f now).length < bufSize := by
  rw [buildJson, Utf8.length_encode_printable (printable_jsonText f now)]
  exact length_jsonText hf now

theorem ddlBridgeTick_due {b : TickingBridge} {t : UInt64} (hstarted : b.schedulerStarted = true)
    (hdue : b.lastEmitMs = 0 ∨ b.periodMs.toUInt64 ≤ t - b.lastEmitMs) {f : DDLFrame}
    (hf : f.InRange) (now : UInt64) :
    ddlBridgeTick b true t now (some f) = ({ b with lastEmitMs := t }, some (buildJson f now)) := by
  obtain ⟨hpos, hlt⟩ := length_buildJson hf now
  have hwait : ¬ (b.lastEmitMs ≠ 0 ∧ t - b.lastEmitMs < b.periodMs.toUInt64) := by
    rintro ⟨hne, hearly⟩
    exact hdue.elim hne fun hle => absurd hearly (UInt64.not_lt.mpr hle)
  have hfits : ¬ ((buildJson f now).length = 0 ∨ bufSize ≤ (buildJson f now).length) := by omega
  simp only [ddlBridgeTick, hstarted, if_neg hwait, if_neg hfits, Option.bind_some,
    Bool.true_eq_false, if_false]

/-! ## What the phone reads -/

theorem ofObject_objectValue {α : Type*} (read : Json → Option α) (fields : List Field) :
    Phone.ofObject read (objectValue fields) = read (objectValue fields) := rfl

theorem toNat_byte_lt (b : UInt8) : b.toNat < 2 ^ 31 := b.toNat_lt.trans (by decide)

def receivedDistance (d : DistanceFrame) : Phone.DistanceFrame where
  valid := d.valid
  distanceM := Decimal.round 2 d.distance
  status := d.status.toNat
  precision := d.precision.toNat
  strength := d.strength.toNat

def receivedTemperatureHumidity (th : TemperatureHumidityFrame) : Phone.TempHumidityFrame where
  valid := th.valid
  temperatureC := Decimal.round 2 th.temperature
  humidityPct := Decimal.round 2 th.humidity

def receivedServo (s : ServoFrame) : Phone.ServoFrame where
  horizontalDeg := Decimal.round 2 s.horAngle
  verticalDeg := Decimal.round 2 s.verAngle

def receivedGps (g : GPSFrame) : Phone.GpsFrame where
  valid := g.valid
  fixType := g.fixType.toNat
  numSatellites := g.numSatellites.toNat
  latitudeDeg := Decimal.round 7 g.latitude
  longitudeDeg := Decimal.round 7 g.longitude
  altitudeM := Decimal.round 2 g.altitude
  hAccM := Decimal.round 2 g.hAcc

def receivedDdlFrame (f : DDLFrame) : Phone.DdlFrame where
  distance := some (receivedDistance f.distFrame)
  temperatureHumidity := some (receivedTemperatureHumidity f.tempHumFrame)
  servo := some (receivedServo f.servoFrame)
  gps := some (receivedGps f.gpsFrame)

/-- The flags, the integers and the time as they are, and the decimals rounded to the places that
are printed. -/
def received (f : DDLFrame) (now : UInt64) : Phone.SensorData where
  type := some (codes "sensor_data".toList)
  timestamp := now.toNat
  ddlFrame := some (receivedDdlFrame f)

theorem distanceFrame_fromJson (d : DistanceFrame) :
    Phone.DistanceFrame.fromJson (objectValue (distanceFields d)) = some (receivedDistance d) := by
  have hvalid : property "valid" false readBoolean (objectValue (distanceFields d)) =
      some d.valid := property_bool rfl
  have hdistance : property "distance_m" 0 readNumber (objectValue (distanceFields d)) =
      some (Decimal.round 2 d.distance) := property_fixed (by decide) rfl
  have hstatus : property "status" 0 readInt (objectValue (distanceFields d)) =
      some (d.status.toNat : ℤ) := property_integer (toNat_byte_lt _) rfl
  have hprecision : property "precision" 0 readInt (objectValue (distanceFields d)) =
      some (d.precision.toNat : ℤ) := property_integer (toNat_byte_lt _) rfl
  have hstrength : property "strength" 0 readInt (objectValue (distanceFields d)) =
      some (d.strength.toNat : ℤ) := property_integer (d.strength.toNat_lt.trans (by decide)) rfl
  rw [Phone.DistanceFrame.fromJson, ofObject_objectValue]
  simp only [hvalid, hdistance, hstatus, hprecision, hstrength, Option.bind_eq_bind,
    Option.bind_some, Option.pure_def, receivedDistance]

theorem tempHumidityFrame_fromJson (th : TemperatureHumidityFrame) :
    Phone.TempHumidityFrame.fromJson (objectValue (temperatureHumidityFields th)) =
      some (receivedTemperatureHumidity th) := by
  have hvalid : property "valid" false readBoolean (objectValue (temperatureHumidityFields th)) =
      some th.valid := property_bool rfl
  have htemperature : property "temperature_c" 0 readNumber
      (objectValue (temperatureHumidityFields th)) = some (Decimal.round 2 th.temperature) :=
    property_fixed (by decide) rfl
  have hhumidity : property "humidity_pct" 0 readNumber
      (objectValue (temperatureHumidityFields th)) = some (Decimal.round 2 th.humidity) :=
    property_fixed (by decide) rfl
  rw [Phone.TempHumidityFrame.fromJson, ofObject_objectValue]
  simp only [hvalid, htemperature, hhumidity, Option.bind_eq_bind,
    Option.bind_some, Option.pure_def, receivedTemperatureHumidity]

theorem servoFrame_fromJson (s : ServoFrame) :
    Phone.ServoFrame.fromJson (objectValue (servoFields s)) = some (receivedServo s) := by
  have hhor : property "horizontal_deg" 0 readNumber (objectValue (servoFields s)) =
      some (Decimal.round 2 s.horAngle) := property_fixed (by decide) rfl
  have hver : property "vertical_deg" 0 readNumber (objectValue (servoFields s)) =
      some (Decimal.round 2 s.verAngle) := property_fixed (by decide) rfl
  rw [Phone.ServoFrame.fromJson, ofObject_objectValue]
  simp only [hhor, hver, Option.bind_eq_bind,
    Option.bind_some, Option.pure_def, receivedServo]

theorem gpsFrame_fromJson (g : GPSFrame) :
    Phone.GpsFrame.fromJson (objectValue (gpsFields g)) = some (receivedGps g) := by
  have hvalid : property "valid" false readBoolean (objectValue (gpsFields g)) =
      some g.valid := property_bool rfl
  have hfix : property "fix_type" 0 readInt (objectValue (gpsFields g)) =
      some (g.fixType.toNat : ℤ) := property_integer (toNat_byte_lt _) rfl
  have hsatellites : property "num_satellites" 0 readInt (objectValue (gpsFields g)) =
      some (g.numSatellites.toNat : ℤ) := property_integer (toNat_byte_lt _) rfl
  have hlatitude : property "latitude_deg" 0 readNumber (objectValue (gpsFields g)) =
      some (Decimal.round 7 g.latitude) := property_fixed (by decide) rfl
  have hlongitude : property "longitude_deg" 0 readNumber (objectValue (gpsFields g)) =
      some (Decimal.round 7 g.longitude) := property_fixed (by decide) rfl
  have haltitude : property "altitude_m" 0 readNumber (objectValue (gpsFields g)) =
      some (Decimal.round 2 g.altitude) := property_fixed (by decide) rfl
  have hhAcc : property "h_acc_m" 0 readNumber (objectValue (gpsFields g)) =
      some (Decimal.round 2 g.hAcc) := property_fixed (by decide) rfl
  rw [Phone.GpsFrame.fromJson, ofObject_objectValue]
  simp only [hvalid, hfix, hsatellites, hlatitude, hlongitude, haltitude, hhAcc,
    Option.bind_eq_bind, Option.bind_some, Option.pure_def, receivedGps]

theorem ddlFrame_fromJson (f : DDLFrame) :
    Phone.DdlFrame.fromJson (objectValue (ddlFrameFields f)) = some (receivedDdlFrame f) := by
  have hdistance : property "distance" none (nullable Phone.DistanceFrame.fromJson)
      (objectValue (ddlFrameFields f)) = some (some (receivedDistance f.distFrame)) :=
    property_nullable (distanceFrame_fromJson f.distFrame) rfl nofun
  have htempHumidity : property "temperature_humidity" none
      (nullable Phone.TempHumidityFrame.fromJson) (objectValue (ddlFrameFields f)) =
        some (some (receivedTemperatureHumidity f.tempHumFrame)) :=
    property_nullable (tempHumidityFrame_fromJson f.tempHumFrame) rfl nofun
  have hservo : property "servo" none (nullable Phone.ServoFrame.fromJson)
      (objectValue (ddlFrameFields f)) = some (some (receivedServo f.servoFrame)) :=
    property_nullable (servoFrame_fromJson f.servoFrame) rfl nofun
  have hgps : property "gps" none (nullable Phone.GpsFrame.fromJson)
      (objectValue (ddlFrameFields f)) = some (some (receivedGps f.gpsFrame)) :=
    property_nullable (gpsFrame_fromJson f.gpsFrame) rfl nofun
  rw [Phone.DdlFrame.fromJson, ofObject_objectValue]
  simp only [hdistance, htempHumidity, hservo, hgps, Option.bind_eq_bind, Option.bind_some,
    Option.pure_def, receivedDdlFrame]

theorem sensorData_fromJson (f : DDLFrame) {now : UInt64} (hnow : now.toNat < 2 ^ 63) :
    Phone.SensorData.fromJson (objectValue (snapshotFields f now)) = some (received f now) := by
  have htype : property "type" none readString (objectValue (snapshotFields f now)) =
      some (some (codes "sensor_data".toList)) := property_string rfl
  have htimestamp : property "timestamp" 0 readLong (objectValue (snapshotFields f now)) =
      some (now.toNat : ℤ) := property_integer hnow rfl
  have hframe : property "ddl_frame" none (nullable Phone.DdlFrame.fromJson)
      (objectValue (snapshotFields f now)) = some (some (receivedDdlFrame f)) :=
    property_nullable (ddlFrame_fromJson f) rfl nofun
  rw [Phone.SensorData.fromJson, ofObject_objectValue]
  simp only [htype, htimestamp, hframe, Option.bind_eq_bind, Option.bind_some, Option.pure_def,
    received]

/-- The message of a frame in range fits the buffer, is one object of JSON, and is read as the
frame, with the decimals rounded to the places that are printed. -/
theorem snapshot_received {f : DDLFrame} (hf : f.InRange) {now : UInt64}
    (hnow : now.toNat < 2 ^ 63) :
    (buildJson f now).length < bufSize ∧ ∃ text members,
      Utf8.decode (buildJson f now) = some text ∧ loads text = some (.object members) ∧
      Phone.SensorData.fromJson (.object members) = some (received f now) := by
  refine ⟨(length_buildJson hf now).2, jsonText f now, _, Utf8.decode_encode _, ?_,
    sensorData_fromJson f hnow⟩
  rw [jsonText_eq]
  exact loads_objectText (snapshotFields_ne_nil f now)

/-- Every number at the end of its range. -/
def extremeFrame : DDLFrame where
  distFrame := ⟨true, (2 ^ 24 - 1) / 1000, 255, 255, 65535⟩
  tempHumFrame := ⟨false, (2 ^ 16 - 1) / 10, -(2 ^ 15 - 1) / 10⟩
  servoFrame := ⟨180, 0⟩
  gpsFrame :=
    ⟨-(2 ^ 31 * (1 / 10000000)), (2 ^ 31 - 1) * (1 / 10000000), -(2 ^ 31 / 1000),
      (2 ^ 32 - 1) / 1000, true, 5, 255⟩

theorem extremeFrame_inRange : extremeFrame.InRange where
  distFrame := by norm_num [extremeFrame, DistanceFrame.InRange]
  tempHumFrame := by constructor <;> norm_num [extremeFrame]
  servoFrame := by constructor <;> norm_num [extremeFrame]
  gpsFrame := by constructor <;> norm_num [extremeFrame]

def lastTime : UInt64 := 9223372036854775807

theorem snapshot_received_extreme :
    (buildJson extremeFrame lastTime).length < bufSize ∧ ∃ text members,
      Utf8.decode (buildJson extremeFrame lastTime) = some text ∧
      loads text = some (.object members) ∧
      Phone.SensorData.fromJson (.object members) = some (received extremeFrame lastTime) :=
  snapshot_received extremeFrame_inRange (by decide +kernel)

end SnipeIt.Bridge
