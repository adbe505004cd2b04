import SnipeIt.Phone.SensorData
import SnipeIt.Phone.Tracker
import SnipeIt.Support.BinaryFloat

/-! # The sensor strip of the dashboard (`SensorData.kt`, `DashboardScreen.kt`)

A cell shows the value of its sub-frame if that is there and valid. `none` stands
for the dash of an empty cell.
-/

namespace SnipeIt.Phone
open Support

/-- The `Float` that Gson reads: it reads a `Double` and makes a `Float` of it. -/
def asFloat (q : ℚ) : ℚ := roundBinary 24 (-149) (roundBinary 53 (-1074) q)

namespace SensorData

/-- The sub-frames that the helpers of `SensorData?` look at. -/
def validTempHumidity (data : Option SensorData) : Option TempHumidityFrame :=
  ((data.bind (·.ddlFrame)).bind (·.temperatureHumidity)).filter (·.valid)

def validDistance (data : Option SensorData) : Option DistanceFrame :=
  ((data.bind (·.ddlFrame)).bind (·.distance)).filter (·.valid)

def validGps (data : Option SensorData) : Option GpsFrame :=
  ((data.bind (·.ddlFrame)).bind (·.gps)).filter (·.valid)

def temperatureC (data : Option SensorData) : Option ℚ :=
  (validTempHumidity data).map fun th => asFloat th.temperatureC

def humidityPct (data : Option SensorData) : Option ℚ :=
  (validTempHumidity data).map fun th => asFloat th.humidityPct

def distanceM (data : Option SensorData) : Option ℚ :=
  (validDistance data).map fun d => asFloat d.distanceM

def gpsLatLon (data : Option SensorData) : Option (ℚ × ℚ) :=
  (validGps data).map fun gps => (gps.latitudeDeg, gps.longitudeDeg)

def gpsSatellites (data : Option SensorData) : Option ℤ := (validGps data).map (·.numSatellites)

end SensorData

/-- The format `%.3f` of Java, in thousandths. It is given the decimals of a `Double`, which are
those of the message, and a tie is rounded away from zero. -/
def thousandths (q : ℚ) : ℤ := if q < 0 then -⌊-q * 1000 + 1 / 2⌋ else ⌊q * 1000 + 1 / 2⌋

/-- The GPS cell, with the satellites if their number is there. -/
structure GpsCell where
  latitude : ℤ
  longitude : ℤ
  satellites : Option ℤ
deriving DecidableEq

structure SensorStrip where
  temperature : Option Int32
  humidity : Option Int32
  gps : Option GpsCell
  distance : Option Int32
deriving DecidableEq

def sensorStrip (data : Option SensorData) : SensorStrip where
  temperature := (SensorData.temperatureC data).map KotlinFloat.toInt
  humidity := (SensorData.humidityPct data).map KotlinFloat.toInt
  gps := (SensorData.gpsLatLon data).map fun (lat, lon) =>
    ⟨thousandths lat, thousandths lon, SensorData.gpsSatellites data⟩
  distance := (SensorData.distanceM data).map KotlinFloat.toInt

theorem asFloat_intCast {n : ℤ} (h : |n| < 2 ^ 24) : asFloat n = n := by
  rw [asFloat, roundBinary_intCast (by decide) (h.trans (by decide)),
    roundBinary_intCast (by decide) h]

theorem asFloat_neg (q : ℚ) : asFloat (-q) = -asFloat q := by
  rw [asFloat, roundBinary_neg, roundBinary_neg, asFloat]

theorem abs_asFloat_sub_lt {q : ℚ} (h : |q| ≤ 2 ^ 14 + 2 ^ 13) : |asFloat q - q| < 1 / 100 := by
  have hdouble : |roundBinary 53 (-1074) q - q| ≤ 2 ^ (-38 : ℤ) / 2 :=
    abs_roundBinary_sub_le (by decide) (h.trans_lt (by norm_num))
  have hsize : |roundBinary 53 (-1074) q| < 2 ^ (15 : ℤ) := by
    have htriangle := abs_sub_abs_le_abs_sub (roundBinary 53 (-1074) q) q
    norm_num at hdouble ⊢
    linarith
  have hfloat : |asFloat q - roundBinary 53 (-1074) q| ≤ 2 ^ (-9 : ℤ) / 2 :=
    abs_roundBinary_sub_le (by decide) hsize
  have htriangle := abs_sub_le (asFloat q) (roundBinary 53 (-1074) q) q
  norm_num at hdouble hfloat
  linarith

/-- Hundredths have the same whole part as a `Float`. -/
theorem toInt_asFloat {q : ℚ} {n : ℤ} (hq : q * (100 : ℕ) = n) (h : |q| ≤ 2 ^ 14 + 2 ^ 13) :
    KotlinFloat.toInt (asFloat q) = KotlinFloat.toInt q := by
  have hfloor {p : ℚ} {m : ℤ} (hp : p * (100 : ℕ) = m) (hle : |p| ≤ 2 ^ 14 + 2 ^ 13)
      (hnonneg : 0 ≤ p) : (asFloat p).num.tdiv (asFloat p).den = p.num.tdiv p.den := by
    have hsame : ⌊asFloat p⌋ = ⌊p⌋ := by
      refine floor_eq_of_near (by decide) hp (by exact_mod_cast abs_asFloat_sub_lt hle) ?_
      rintro k rfl
      refine asFloat_intCast ?_
      have hk : |k| ≤ 2 ^ 14 + 2 ^ 13 := by exact_mod_cast hle
      omega
    have hfloat : 0 ≤ asFloat p := by
      rw [← Int.floor_nonneg, hsame]
      exact Int.floor_nonneg.mpr hnonneg
    rw [tdiv_of_nonneg hfloat, tdiv_of_nonneg hnonneg, hsame]
  change Int32.ofIntClamp _ = Int32.ofIntClamp _
  congr 1
  rcases le_total 0 q with hnonneg | hnonpos
  · exact hfloor hq h hnonneg
  · have hneg := hfloor (p := -q) (m := -n) (by push_cast; rw [← hq]; push_cast; ring)
      (by rwa [abs_neg]) (neg_nonneg.mpr hnonpos)
    rw [asFloat_neg, Rat.num_neg_eq_neg_num, Rat.num_neg_eq_neg_num, Rat.den_neg_eq_den,
      Rat.den_neg_eq_den, Int.neg_tdiv, Int.neg_tdiv] at hneg
    exact neg_inj.mp hneg

end SnipeIt.Phone
