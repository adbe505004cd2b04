import SnipeIt.Ddl.Am2302
import SnipeIt.Ddl.FrameCodecs
import SnipeIt.Ddl.ServoFrame
import SnipeIt.Ddl.ServoScan

/-! # The frame of all sensors (`ddl_frame.h`)

What the modules keep for the phone, and the ranges of it. The numbers are exact
here: they are rationals.
-/

namespace SnipeIt.Ddl
open Support

structure DistanceFrame where
  valid : Bool
  distance : ℚ
  status : UInt8
  precision : UInt8
  strength : UInt16

structure TemperatureHumidityFrame where
  valid : Bool
  humidity : ℚ
  temperature : ℚ

structure ServoFrame where
  horAngle : ℚ
  verAngle : ℚ

structure GPSFrame where
  latitude : ℚ
  longitude : ℚ
  altitude : ℚ
  hAcc : ℚ
  valid : Bool
  fixType : UInt8
  numSatellites : UInt8

structure DDLFrame where
  distFrame : DistanceFrame
  tempHumFrame : TemperatureHumidityFrame
  servoFrame : ServoFrame
  gpsFrame : GPSFrame

/-- Thousandths of 24 bits. -/
def DistanceFrame.InRange (d : DistanceFrame) : Prop :=
  0 ≤ d.distance ∧ d.distance ≤ (2 ^ 24 - 1) / 1000

/-- Tenths of 16 bits, and of 15 bits with a sign. -/
structure TemperatureHumidityFrame.InRange (th : TemperatureHumidityFrame) : Prop where
  humidity : 0 ≤ th.humidity ∧ th.humidity ≤ (2 ^ 16 - 1) / 10
  temperature : |th.temperature| ≤ (2 ^ 15 - 1) / 10

structure ServoFrame.InRange (s : ServoFrame) : Prop where
  horAngle : 0 ≤ s.horAngle ∧ s.horAngle ≤ 180
  verAngle : 0 ≤ s.verAngle ∧ s.verAngle ≤ 180

/-- Ten-millionths of 32 bits with a sign for the angles, thousandths for the lengths, of which the
accuracy has no sign. -/
structure GPSFrame.InRange (g : GPSFrame) : Prop where
  latitude : |g.latitude| ≤ 2 ^ 31 * (1 / 10000000)
  longitude : |g.longitude| ≤ 2 ^ 31 * (1 / 10000000)
  altitude : |g.altitude| ≤ 2 ^ 31 / 1000
  hAcc : 0 ≤ g.hAcc ∧ g.hAcc ≤ (2 ^ 32 - 1) / 1000

structure DDLFrame.InRange (f : DDLFrame) : Prop where
  distFrame : f.distFrame.InRange
  tempHumFrame : f.tempHumFrame.InRange
  servoFrame : f.servoFrame.InRange
  gpsFrame : f.gpsFrame.InRange

/-! ## What the modules write -/

theorem cast_le_of_lt {n k : ℕ} (h : n < 2 ^ k) : (n : ℚ) ≤ 2 ^ k - 1 := by
  have hnext : ((n + 1 : ℕ) : ℚ) ≤ (2 ^ k : ℕ) := Nat.cast_le.mpr h
  push_cast at hnext
  linarith

def DistanceObject.frame (aobj : DistanceObject) : DistanceFrame where
  valid := aobj.valid
  distance := aobj.measurement.distance
  status := aobj.measurement.status
  precision := aobj.measurement.precision
  strength := aobj.measurement.strength

theorem updateDistanceFrame_inRange (order : ByteOrder) (aobj : DistanceObject)
    (frame : TOFSenseFrame) : (TOFSense.updateDistanceFrame order aobj frame).frame.InRange := by
  rw [TOFSense.updateDistanceFrame_eq]
  change 0 ≤ exactFloats.thousandths _ ∧ exactFloats.thousandths _ ≤ (2 ^ 24 - 1) / 1000
  have hlt : leValue [frame 8, frame 9, frame 10] < 256 ^ 3 := leValue_lt _
  have hle : (leValue [frame 8, frame 9, frame 10] : ℚ) ≤ 2 ^ 24 - 1 := cast_le_of_lt hlt
  rw [exactFloats_thousandths, littleEndian24_toNat]
  constructor
  · positivity
  · gcongr

/-- `aobj->frame` of the temperature and humidity sensor, when it was read from this. -/
def Am2302.TempHumFrame.frame (valid : Bool) (frame : Am2302.TempHumFrame) :
    TemperatureHumidityFrame where
  valid := valid
  humidity := Am2302.humidityOf frame
  temperature := Am2302.temperatureOf frame

theorem decodeFrame_inRange (valid : Bool) (frame : Am2302.TempHumFrame) :
    (frame.frame valid).InRange := by
  have hmasked (w : UInt16) : ((w &&& 0x7FFF).toNat : ℚ) ≤ 2 ^ 15 - 1 := by
    have hle : (w &&& 0x7FFF).toNat ≤ 2 ^ 15 - 1 := by
      rw [UInt16.toNat_and]
      exact Nat.and_le_right
    exact cast_le_of_lt (Nat.lt_of_le_pred (by decide) hle)
  constructor
  · change 0 ≤ Am2302.humidityOf frame ∧ Am2302.humidityOf frame ≤ (2 ^ 16 - 1) / 10
    rw [Am2302.humidityOf]
    constructor
    · positivity
    · gcongr
      exact cast_le_of_lt (UInt16.toNat_lt _)
  · change |Am2302.temperatureOf frame| ≤ (2 ^ 15 - 1) / 10
    have hmagnitude (w : UInt16) : |((w &&& 0x7FFF).toNat : ℚ) / 10| ≤ (2 ^ 15 - 1) / 10 := by
      rw [abs_of_nonneg (by positivity)]
      gcongr
      exact hmasked w
    rw [Am2302.temperatureOf]
    split_ifs
    · rw [abs_neg]
      exact hmagnitude _
    · exact hmagnitude _

def GPSObject.frame (aobj : GPSObject) : GPSFrame where
  latitude := aobj.measurement.latitude
  longitude := aobj.measurement.longitude
  altitude := aobj.measurement.altitude
  hAcc := aobj.measurement.hAcc
  valid := aobj.valid
  fixType := aobj.measurement.fixType
  numSatellites := aobj.measurement.numSatellites

theorem updateGpsFrame_inRange (order : ByteOrder) (aobj : GPSObject) (frame : UbxNavPvtFrame) :
    (UbxNavPvt.updateGpsFrame order aobj frame).frame.InRange := by
  have hsigned (x : Int32) : |(x.toInt : ℚ)| ≤ 2 ^ 31 := by
    have hlow := x.le_toInt
    have hhigh := x.toInt_lt
    have habs : |x.toInt| ≤ 2 ^ 31 := abs_le.mpr ⟨by omega, by omega⟩
    exact_mod_cast habs
  have hangle (x : Int32) : |exactFloats.tenMillionths x| ≤ 2 ^ 31 * (1 / 10000000) := by
    rw [exactFloats_tenMillionths, abs_mul, abs_of_pos (by norm_num : (0 : ℚ) < 1 / 10000000)]
    gcongr
    exact hsigned x
  have hheight (x : Int32) : |exactFloats.signedThousandths x| ≤ 2 ^ 31 / 1000 := by
    rw [exactFloats_signedThousandths, abs_div, abs_of_pos (by norm_num : (0 : ℚ) < 1000)]
    gcongr
    exact hsigned x
  rw [UbxNavPvt.updateGpsFrame_eq]
  refine ⟨hangle _, hangle _, hheight _, ?_⟩
  change 0 ≤ exactFloats.thousandths _ ∧ exactFloats.thousandths _ ≤ (2 ^ 32 - 1) / 1000
  rw [exactFloats_thousandths]
  constructor
  · positivity
  · gcongr
    exact cast_le_of_lt (UInt32.toNat_lt _)

namespace Servo

variable {s t : Servo} {a : ServoAct} {acts : List ServoAct}

def servoFrame (s : Servo) : ServoFrame := ⟨s.frame.hor, s.frame.ver⟩

/-- The frame takes the angles of the scan or of the target. -/
theorem step_frame_inRange (hframe : s.frame.InRange) (hscan : s.scan.InRange)
    (htarget : s.target.angles.InRange) (h : Step s a t) : t.frame.InRange := by
  have hwrites {bus : I2c} {p : ServoAngles} (hp : p.InRange) :
      (if bus.Works then p else s.frame).InRange := by
    split_ifs
    · exact hp
    · exact hframe
  cases step_does h with
  | failed | targetRefused | targetSet | keeps | ignores => exact hframe
  | started => exact hwrites start_inRange
  | entersScan => exact hwrites hscan
  | entersNoiseScan | entersTargetLock | follows => exact hwrites htarget
  | @scansOn bus =>
    rw [(s.scanOn_writes bus).frame]
    exact hwrites (scanOperation_inRange hscan)

theorem run_servoFrame_inRange {hor ver : ServoChannel} (h : Run Step (created hor ver) acts t) :
    t.servoFrame.InRange := by
  have hframe : t.frame.InRange := by
    induction h with
    | nil => exact (by decide +kernel : (⟨0, 0⟩ : ServoAngles).InRange)
    | snoc hrun hstep ih =>
      obtain ⟨hscan, htarget⟩ := run_inRange hrun
      exact step_frame_inRange ih hscan htarget hstep
  exact ⟨hframe.1, hframe.2⟩

end Servo
end SnipeIt.Ddl
