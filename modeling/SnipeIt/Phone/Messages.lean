import SnipeIt.Phone.Client
import SnipeIt.Phone.Dashboard
import SnipeIt.Phone.SensorData

/-! # Messages from the Pi (`RaspberryPiClient.kt`)

`handleWebSocketMessage` reads a message as a map first and then does what its type
asks for. An exception on the way leaves everything as it was.
-/

namespace SnipeIt.Phone
open Support Json

def isNull : Json → Bool
  | .null => true
  | _ => false

/-- `gson.fromJson(message, Map::class.java)`: an object in which no key comes again after a value
that is not `null`. -/
def readMap (message : List Char) : Option Json :=
  match loads message with
  | some (.object members) =>
    if members.Pairwise fun a b => a.1 = b.1 → isNull a.2 then some (.object members) else none
  | _ => none

/-- `as? String`. A surrogate without its partner is no character here. -/
def asString : Json → Option String
  | .string codes => some (String.ofList (codes.map Char.ofNat))
  | _ => none

/-- `as? Double`: the double that is nearest to the number. -/
def asDouble (json : Json) : Option ℚ := (readNumber json).map (roundBinary 53 (-1074))

def asList : Json → Option (List Json)
  | .array elements => some elements
  | _ => none

def asMap : Json → Option Json
  | .object members => some (.object members)
  | _ => none

/-- `map[name] as? T` -/
def entry {α : Type*} (read : Json → Option α) (name : String) (map : Json) : Option α :=
  (map.get? (codes name.toList)).bind read

/-! ## The messages -/

/-- A property of the box, zero if it is missing. -/
def boxEntry (name : String) (bboxMap : Json) : Int32 :=
  ((entry asDouble name bboxMap).map KotlinFloat.toInt).getD 0

/-- One element of `detections`; `none` for one that is left out. -/
def readDetection (timestampMs : ℤ) (detection : Json) : Option (DetectedTarget ℚ) := do
  let bboxMap ← entry asMap "bbox" detection
  let bbox : BoundingBox :=
    { x := boxEntry "x" bboxMap
      y := boxEntry "y" bboxMap
      width := boxEntry "width" bboxMap
      height := boxEntry "height" bboxMap }
  return {
    id := (entry asString "id" detection).getD "UNKNOWN"
    targetType := (entry asString "class" detection).getD "UNKNOWN"
    confidence := ((entry asDouble "confidence" detection).map KotlinDouble.toFloat).getD 0
    bbox := bbox
    timestamp := timestampMs }

/-- An element that is no map ends the handler; `null` is left out like an element without a
box. -/
def IsElement : Json → Prop
  | .null => True
  | .object _ => True
  | _ => False

instance : DecidablePred IsElement
  | .null => isTrue trivial
  | .object _ => isTrue trivial
  | .bool _ => isFalse id
  | .int _ => isFalse id
  | .float _ => isFalse id
  | .string _ => isFalse id
  | .array _ => isFalse id

/-- What a message changes. A type that nobody knows and a detection message without a list change
nothing. -/
inductive Received where
  | sensorData (data : SensorData)
  | targetDetection (targets : List (DetectedTarget ℚ)) (timestampMs : ℤ)
  | shootingSolution (solution : ShootingSolution ℚ ℚ)
  | streamReady (rtspPort : Option ℤ) (streamName : Option String)
  | systemStatus
  | nothing

def readTargetDetection (now : ℤ) (map : Json) : Option Received :=
  let timestampMs := ((entry asDouble "timestamp_ms" map).map (KotlinDouble.toLong ℚ)).getD now
  match entry asList "detections" map with
  | none => some .nothing
  | some detections =>
    if ∀ d ∈ detections, IsElement d then
      some (.targetDetection (detections.filterMap (readDetection timestampMs)) timestampMs)
    else none

def readShootingSolution (now : ℤ) (map : Json) : Received :=
  .shootingSolution (SolutionMessage.toSolution
    { targetId := entry asString "targetId" map
      azimuth := entry asDouble "azimuth" map
      elevation := entry asDouble "elevation" map
      windageAdjustment := entry asDouble "windageAdjustment" map
      elevationAdjustment := entry asDouble "elevationAdjustment" map
      confidence := entry asDouble "confidence" map
      timestamp := entry asDouble "timestamp" map } now)

/-- `handleWebSocketMessage` at the time `now`, `none` for an exception. -/
def handleWebSocketMessage (now : ℤ) (message : List Char) : Option Received := do
  let messageMap ← readMap message
  match (entry asString "type" messageMap).or (entry asString "event" messageMap) with
  | some "sensor_data" => (SensorData.fromJson messageMap).map .sensorData
  | some "target_detection" => readTargetDetection now messageMap
  | some "shooting_solution" => some (readShootingSolution now messageMap)
  | some "stream_ready" =>
    let rtspPort := (entry asDouble "rtsp_port" messageMap).map fun q => (KotlinFloat.toInt q).toInt
    some (.streamReady rtspPort (entry asString "stream_name" messageMap))
  | some "system_status" => some .systemStatus
  | _ => some .nothing

/-- The callback `onMessage`, with the bytes of a text frame. -/
def onMessage (now : ℤ) (bytes : List UInt8) : Option Received :=
  (Utf8.decode bytes).bind (handleWebSocketMessage now)

end SnipeIt.Phone
