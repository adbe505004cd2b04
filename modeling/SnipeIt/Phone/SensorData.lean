import SnipeIt.Support.Decimal

/-! # The schema of the sensor data (`SensorData.kt`)

The classes that Gson fills from a message. Numbers of type `Float` and `Double`
are exact here: they are rationals.
-/

namespace SnipeIt.Phone
open Support Json

/-! ## Gson -/

/-- A property of a class keeps the default of its constructor if it is missing or `null`. -/
def property {α : Type*} (name : String) (default : α) (read : Json → Option α) (json : Json) :
    Option α :=
  match json.get? (codes name.toList) with
  | none => some default
  | some .null => some default
  | some value => read value

def ofObject {α : Type*} (read : Json → Option α) : Json → Option α
  | .object members => read (.object members)
  | _ => none

def readString : Json → Option (Option (List ℕ))
  | .string codes => some (some codes)
  | _ => none

def readBoolean : Json → Option Bool
  | .bool b => some b
  | _ => none

def readInteger (bits : ℕ) : Json → Option ℤ
  | .int n => if -2 ^ (bits - 1) ≤ n ∧ n < 2 ^ (bits - 1) then some n else none
  | _ => none

/-- `Int`. -/
def readInt : Json → Option ℤ := readInteger 32

/-- `Long`. -/
def readLong : Json → Option ℤ := readInteger 64

/-- `Float` and `Double`. -/
def readNumber : Json → Option ℚ
  | .int n => some n
  | .float literal => Decimal.value literal
  | _ => none

section

variable {α : Type*} {name : String} {default : α} {read : Json → Option α} {json value : Json}

theorem property_eq (h : json.get? (codes name.toList) = some value) (hnull : value ≠ .null) :
    property name default read json = read value := by
  rw [property, h]
  cases value with
  | null => exact absurd rfl hnull
  | _ => rfl

theorem property_bool {b : Bool} (h : json.get? (codes name.toList) = some (.bool b)) :
    property name false readBoolean json = some b := property_eq h nofun

theorem property_string {text : List ℕ} (h : json.get? (codes name.toList) = some (.string text)) :
    property name none readString json = some (some text) := property_eq h nofun

theorem readInteger_nat {bits n : ℕ} (h : n < 2 ^ (bits - 1)) :
    readInteger bits (.int n) = some (n : ℤ) := by
  have hlt : (n : ℤ) < 2 ^ (bits - 1) := by exact_mod_cast h
  have hge : -2 ^ (bits - 1) ≤ (n : ℤ) := by
    have hpos : (0 : ℤ) ≤ 2 ^ (bits - 1) := by positivity
    omega
  rw [readInteger, if_pos ⟨hge, hlt⟩]

theorem property_integer {bits n : ℕ} (hn : n < 2 ^ (bits - 1))
    (h : json.get? (codes name.toList) = some (.int n)) :
    property name 0 (readInteger bits) json = some (n : ℤ) :=
  (property_eq h nofun).trans (readInteger_nat hn)

theorem property_fixed {places : ℕ} {q : ℚ} (hplaces : 0 < places)
    (h : json.get? (codes name.toList) = some (.float (Decimal.fixed places q))) :
    property name 0 readNumber json = some (Decimal.round places q) :=
  (property_eq h nofun).trans (Decimal.value_fixed hplaces q)

end

/-! ## The classes -/

structure DistanceFrame where
  valid : Bool
  distanceM : ℚ
  status : ℤ
  precision : ℤ
  strength : ℤ
  deriving DecidableEq

structure TempHumidityFrame where
  valid : Bool
  temperatureC : ℚ
  humidityPct : ℚ
  deriving DecidableEq

structure ServoFrame where
  horizontalDeg : ℚ
  verticalDeg : ℚ
  deriving DecidableEq

structure GpsFrame where
  valid : Bool
  fixType : ℤ
  numSatellites : ℤ
  latitudeDeg : ℚ
  longitudeDeg : ℚ
  altitudeM : ℚ
  hAccM : ℚ
  deriving DecidableEq

structure DdlFrame where
  distance : Option DistanceFrame
  temperatureHumidity : Option TempHumidityFrame
  servo : Option ServoFrame
  gps : Option GpsFrame
  deriving DecidableEq

structure SensorData where
  type : Option (List ℕ)
  timestamp : ℤ
  ddlFrame : Option DdlFrame
  deriving DecidableEq

def DistanceFrame.fromJson : Json → Option DistanceFrame := ofObject fun json => do
  let valid ← property "valid" false readBoolean json
  let distanceM ← property "distance_m" 0 readNumber json
  let status ← property "status" 0 readInt json
  let precision ← property "precision" 0 readInt json
  let strength ← property "strength" 0 readInt json
  return { valid, distanceM, status, precision, strength }

def TempHumidityFrame.fromJson : Json → Option TempHumidityFrame := ofObject fun json => do
  let valid ← property "valid" false readBoolean json
  let temperatureC ← property "temperature_c" 0 readNumber json
  let humidityPct ← property "humidity_pct" 0 readNumber json
  return { valid, temperatureC, humidityPct }

def ServoFrame.fromJson : Json → Option ServoFrame := ofObject fun json => do
  let horizontalDeg ← property "horizontal_deg" 0 readNumber json
  let verticalDeg ← property "vertical_deg" 0 readNumber json
  return { horizontalDeg, verticalDeg }

def GpsFrame.fromJson : Json → Option GpsFrame := ofObject fun json => do
  let valid ← property "valid" false readBoolean json
  let fixType ← property "fix_type" 0 readInt json
  let numSatellites ← property "num_satellites" 0 readInt json
  let latitudeDeg ← property "latitude_deg" 0 readNumber json
  let longitudeDeg ← property "longitude_deg" 0 readNumber json
  let altitudeM ← property "altitude_m" 0 readNumber json
  let hAccM ← property "h_acc_m" 0 readNumber json
  return { valid, fixType, numSatellites, latitudeDeg, longitudeDeg, altitudeM, hAccM }

/-- A class that may be `null`. -/
def nullable {α : Type*} (read : Json → Option α) (json : Json) : Option (Option α) :=
  (read json).map some

theorem property_nullable {α : Type*} {name : String} {read : Json → Option α} {json value : Json}
    {a : α} (hread : read value = some a) (h : json.get? (codes name.toList) = some value)
    (hnull : value ≠ .null) : property name none (nullable read) json = some (some a) := by
  rw [property_eq h hnull, nullable, hread, Option.map_some]

def DdlFrame.fromJson : Json → Option DdlFrame := ofObject fun json => do
  let distance ← property "distance" none (nullable DistanceFrame.fromJson) json
  let temperatureHumidity ←
    property "temperature_humidity" none (nullable TempHumidityFrame.fromJson) json
  let servo ← property "servo" none (nullable ServoFrame.fromJson) json
  let gps ← property "gps" none (nullable GpsFrame.fromJson) json
  return { distance, temperatureHumidity, servo, gps }

def SensorData.fromJson : Json → Option SensorData := ofObject fun json => do
  let type ← property "type" none readString json
  let timestamp ← property "timestamp" 0 readLong json
  let ddlFrame ← property "ddl_frame" none (nullable DdlFrame.fromJson) json
  return { type, timestamp, ddlFrame }

end SnipeIt.Phone
