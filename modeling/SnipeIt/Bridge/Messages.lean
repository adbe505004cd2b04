import SnipeIt.Bridge.Snapshot
import SnipeIt.Config.Reader
import SnipeIt.Detector.DetectionMessage
import SnipeIt.Phone.Messages

/-! # What the phone makes of the messages of the Pi

The detector's detections, the sensor snapshots of the bridge and the announcement of
the stream: each of them is read as what was sent.
-/

namespace SnipeIt.Bridge
open Support Json Config
open Phone (Received BoundingBox DetectedTarget KotlinDouble entry asString asDouble asList asMap
  readMap readDetection handleWebSocketMessage onMessage isNull boxEntry)
open Detector (DetectionPayload makeDetection detectionMessage sendDetection sendRaw)

theorem readMap_of_loads {text : List Char} {members : List (List ℕ × Json)}
    (h : loads text = some (.object members)) (hkeys : (members.map Prod.fst).Nodup) :
    readMap text = some (.object members) := by
  have hdistinct : members.Pairwise fun a b => a.1 = b.1 → isNull a.2 := by
    refine (List.pairwise_map.mp hkeys).imp fun hne heq => absurd heq hne
  simp only [readMap, h, if_pos hdistinct]

theorem asString_codes (s : String) : asString (.string (codes s.toList)) = some s := by
  have hid : (codes s.toList).map Char.ofNat = s.toList := by
    rw [codes, List.map_map]
    exact List.map_id'' Char.ofNat_toNat _
  rw [asString, hid, String.ofList_toList]

theorem toInt_intCast (n : ℤ) : Phone.KotlinFloat.toInt (n : ℚ) = Int32.ofIntClamp n := by
  change Int32.ofIntClamp ((n : ℚ).num.tdiv (n : ℚ).den) = _
  rw [Rat.num_intCast, Rat.den_intCast, Nat.cast_one, Int.tdiv_one]

/-- Whole numbers below 2^53 are doubles. -/
theorem asDouble_int {n : ℤ} (h : |n| < 2 ^ 53) : asDouble (.int n) = some (n : ℚ) :=
  congrArg some (roundBinary_intCast (by decide) h)

/-- A number of 32 bits. -/
def IsInt (n : ℤ) : Prop := -2 ^ 31 ≤ n ∧ n < 2 ^ 31

theorem toInt_ofIntClamp {n : ℤ} (h : IsInt n) : (Int32.ofIntClamp n).toInt = n := by
  have hmin : Int32.minValue.toInt = -2 ^ 31 := by decide
  have hmax : Int32.maxValue.toInt = 2 ^ 31 - 1 := by decide
  exact Int32.toInt_ofIntClamp (hmin ▸ h.1) (by have := h.2; omega)

/-! ## Detections -/

/-- A confidence as the phone keeps it: three places, as a `Float`. -/
def receivedConfidence (q : ℚ) : ℚ :=
  KotlinDouble.toFloat (roundBinary 53 (-1074) (Decimal.round 3 q))

theorem receivedConfidence_mem {q : ℚ} (h : 0 ≤ q ∧ q ≤ 1) :
    0 ≤ receivedConfidence q ∧ receivedConfidence q ≤ 1 := by
  have hplaces := Decimal.round_mem (m := 0) (n := 1) 3 (by exact_mod_cast h.1)
    (by exact_mod_cast h.2)
  exact roundBinary_mem (by decide) (by decide)
    (roundBinary_mem (by decide) (by decide) (by exact_mod_cast hplaces))

def receivedTarget (timestampMs : ℤ) (d : DetectionPayload ℚ) : DetectedTarget ℚ where
  id := d.detectionId
  targetType := d.objClass
  confidence := receivedConfidence d.confidence
  bbox := ⟨.ofIntClamp d.bbox.x, .ofIntClamp d.bbox.y, .ofIntClamp d.bbox.width,
    .ofIntClamp d.bbox.height⟩
  timestamp := timestampMs

theorem boxEntry_int {name : String} {map : Json} {n : ℤ} (hn : IsInt n)
    (h : map.get? (codes name.toList) = some (.int n)) :
    boxEntry name map = Int32.ofIntClamp n := by
  have hread : entry asDouble name map = some (n : ℚ) := by
    rw [entry, h, Option.bind_some, asDouble_int (abs_lt.mpr ⟨?_, ?_⟩)]
    · have := hn.1
      omega
    · have := hn.2
      omega
  rw [boxEntry, hread, Option.map_some, Option.getD_some, toInt_intCast]

/-- The box has coordinates of 32 bits. -/
def IsBox (b : Detector.Bbox) : Prop := IsInt b.x ∧ IsInt b.y ∧ IsInt b.width ∧ IsInt b.height

theorem readDetection_makeDetection (timestampMs : ℤ) {d : DetectionPayload ℚ} (h : IsBox d.bbox) :
    readDetection timestampMs (makeDetection d) = some (receivedTarget timestampMs d) := by
  have hbbox : entry asMap "bbox" (makeDetection d) = some (.object
      [(Detector.key "x", .int d.bbox.x), (Detector.key "y", .int d.bbox.y),
        (Detector.key "width", .int d.bbox.width), (Detector.key "height", .int d.bbox.height)]) :=
    rfl
  have hid : entry asString "id" (makeDetection d) = some d.detectionId :=
    asString_codes d.detectionId
  have hclass : entry asString "class" (makeDetection d) = some d.objClass :=
    asString_codes d.objClass
  have hconfidence : entry asDouble "confidence" (makeDetection d) =
      some (roundBinary 53 (-1074) (Decimal.round 3 d.confidence)) :=
    congrArg (Option.map _) (Decimal.value_shortest (by decide) d.confidence)
  obtain ⟨hx, hy, hwidth, hheight⟩ := h
  rw [readDetection, hbbox]
  simp only [Option.bind_eq_bind, Option.bind_some, Option.pure_def, hid, hclass, hconfidence,
    Option.map_some, Option.getD_some, receivedTarget, receivedConfidence]
  rw [boxEntry_int hx rfl, boxEntry_int hy rfl, boxEntry_int hwidth rfl, boxEntry_int hheight rfl]

theorem handle_detectionMessage {timestampMs : ℤ} (htime : |timestampMs| < 2 ^ 53)
    {detections : List (DetectionPayload ℚ)} (hbox : ∀ d ∈ detections, IsBox d.bbox) (now : ℤ) :
    handleWebSocketMessage now (dumps (detectionMessage timestampMs detections)) =
      some (.targetDetection (detections.map (receivedTarget timestampMs)) timestampMs) := by
  have hmap : readMap (dumps (detectionMessage timestampMs detections)) =
      some (detectionMessage timestampMs detections) :=
    readMap_of_loads (loads_dumps (Detector.dumpable_detectionMessage timestampMs detections))
      (show [Detector.key "type", Detector.key "timestamp_ms", Detector.key "detections"].Nodup by
        decide)
  have htype : entry asString "type" (detectionMessage timestampMs detections) =
      some "target_detection" := asString_codes "target_detection"
  have htimestamp : ((entry asDouble "timestamp_ms" (detectionMessage timestampMs detections)).map
      (KotlinDouble.toLong ℚ)).getD now = timestampMs := by
    have hread : entry asDouble "timestamp_ms" (detectionMessage timestampMs detections) =
        some (timestampMs : ℚ) := asDouble_int htime
    obtain ⟨hmin, hmax⟩ := abs_lt.mp htime
    rw [hread, Option.map_some, Option.getD_some]
    change max _ (min _ ((timestampMs : ℚ).num.tdiv (timestampMs : ℚ).den)) = timestampMs
    rw [Rat.num_intCast, Rat.den_intCast, Nat.cast_one, Int.tdiv_one]
    omega
  have hlist : entry asList "detections" (detectionMessage timestampMs detections) =
      some (detections.map makeDetection) := rfl
  have helements : ∀ v ∈ detections.map makeDetection, Phone.IsElement v := by
    intro v hv
    obtain ⟨d, -, rfl⟩ := List.mem_map.mp hv
    trivial
  have htargets : (detections.map makeDetection).filterMap (readDetection timestampMs) =
      detections.map (receivedTarget timestampMs) := by
    rw [List.filterMap_map, ← List.filterMap_eq_map]
    exact List.filterMap_congr fun d hd => readDetection_makeDetection timestampMs (hbox d hd)
  rw [handleWebSocketMessage, hmap]
  simp only [Option.bind_eq_bind, Option.bind_some, htype, Option.some_or]
  rw [Phone.readTargetDetection, htimestamp, hlist]
  simp only [if_pos helements, htargets]

/-- The target is the detection, with its confidence as far as the phone keeps it. -/
structure Mirrors (timestampMs : ℤ) (d : DetectionPayload ℚ) (t : DetectedTarget ℚ) : Prop where
  id : t.id = d.detectionId
  targetType : t.targetType = d.objClass
  confidence : t.confidence = receivedConfidence d.confidence
  box : t.bbox.x.toInt = d.bbox.x ∧ t.bbox.y.toInt = d.bbox.y ∧
    t.bbox.width.toInt = d.bbox.width ∧ t.bbox.height.toInt = d.bbox.height
  timestamp : t.timestamp = timestampMs

theorem receivedTarget_mirrors (timestampMs : ℤ) {d : DetectionPayload ℚ} (h : IsBox d.bbox) :
    Mirrors timestampMs d (receivedTarget timestampMs d) where
  id := rfl
  targetType := rfl
  confidence := rfl
  box := ⟨toInt_ofIntClamp h.1, toInt_ofIntClamp h.2.1, toInt_ofIntClamp h.2.2.1,
    toInt_ofIntClamp h.2.2.2⟩
  timestamp := rfl

/-- Detections are one line, and the phone gets a target for each of them, in the same order. -/
theorem detections_received {timestampMs : ℤ} (htime : |timestampMs| < 2 ^ 53)
    {detections : List (DetectionPayload ℚ)}
    (hbox : ∀ d ∈ detections, IsBox d.bbox) (now : ℤ) :
    Ipc.lf ∉ sendDetection timestampMs detections ∧
      Ipc.nul ∉ sendDetection timestampMs detections ∧
      ∃ targets, onMessage now (sendDetection timestampMs detections) =
          some (.targetDetection targets timestampMs) ∧
        List.Forall₂ (Mirrors timestampMs) detections targets := by
  obtain ⟨hlf, hnul⟩ :=
    Detector.sendRaw_line (Detector.dumpable_detectionMessage timestampMs detections)
  refine ⟨hlf, hnul, detections.map (receivedTarget timestampMs), ?_, ?_⟩
  · rw [onMessage, sendDetection, sendRaw, Utf8.decode_encode, Option.bind_some,
      handle_detectionMessage htime hbox]
  · rw [List.forall₂_map_right_iff, List.forall₂_same]
    exact fun d hd => receivedTarget_mirrors timestampMs (hbox d hd)

/-- A person in the middle of the frame. -/
def person : DetectionPayload ℚ := ⟨"1", "HUMAN", 2469 / 2900, ⟨960, 540, 200, 400⟩⟩

theorem detections_received_person :
    Ipc.lf ∉ sendDetection 5000 [person] ∧ Ipc.nul ∉ sendDetection 5000 [person] ∧
      ∃ targets, onMessage 0 (sendDetection 5000 [person]) =
          some (.targetDetection targets 5000) ∧
        List.Forall₂ (Mirrors 5000) [person] targets :=
  detections_received (by decide) (by
    intro d hd
    rw [List.mem_singleton.mp hd]
    exact ⟨by constructor <;> decide, by constructor <;> decide, by constructor <;> decide,
      by constructor <;> decide⟩) 0

theorem snapshotFields_keys (f : Ddl.DDLFrame) (now : UInt64) :
    ((snapshotFields f now).map fun g => (codes g.key, g.value)).map Prod.fst =
      [codes "type".toList, codes "timestamp".toList, codes "ddl_frame".toList] := rfl

theorem snapshotFields_type (f : Ddl.DDLFrame) (now : UInt64) :
    (objectValue (snapshotFields f now)).get? (codes "type".toList) =
      some (.string (codes "sensor_data".toList)) := rfl

theorem snapshotKeys_nodup :
    [codes "type".toList, codes "timestamp".toList, codes "ddl_frame".toList].Nodup := by decide

theorem readMap_snapshot (f : Ddl.DDLFrame) (now : UInt64) :
    readMap (jsonText f now) = some (objectValue (snapshotFields f now)) := by
  have hloads : loads (jsonText f now) = some (objectValue (snapshotFields f now)) := by
    rw [jsonText_eq]
    exact loads_objectText (snapshotFields_ne_nil f now)
  refine readMap_of_loads hloads ?_
  rw [snapshotFields_keys]
  exact snapshotKeys_nodup

theorem handle_sensorData {text : List Char} {map : Json} {data : Phone.SensorData}
    (hmap : readMap text = some map) (htype : entry asString "type" map = some "sensor_data")
    (hdata : Phone.SensorData.fromJson map = some data) (time : ℤ) :
    handleWebSocketMessage time text = some (.sensorData data) := by
  rw [handleWebSocketMessage, hmap]
  simp only [Option.bind_eq_bind, Option.bind_some, htype, Option.some_or, hdata, Option.map_some]

theorem handle_snapshot (f : Ddl.DDLFrame) {now : UInt64} (hnow : now.toNat < 2 ^ 63) (time : ℤ) :
    handleWebSocketMessage time (jsonText f now) = some (.sensorData (received f now)) := by
  have htype : entry asString "type" (objectValue (snapshotFields f now)) = some "sensor_data" := by
    rw [entry, snapshotFields_type]
    exact asString_codes "sensor_data"
  exact handle_sensorData (readMap_snapshot f now) htype (sensorData_fromJson f hnow) time

/-! ## The announcement of the stream -/

/-- The text of `send_stream_ready`, which has room for 255 bytes. -/
def readyMsg (config : StreamingConfig) : List UInt8 :=
  (ascii "\x7b\"event\":\"stream_ready\",\"rtsp_port\":" ++
    Utf8.encode (printInt (config.rtspPort < 0) config.rtspPort.natAbs) ++
    ascii ",\"stream_name\":\"" ++ config.rtspStreamName ++ ascii "\"\x7d").take 255

/-- A port that `config_validate` allows, and a name of the size of its field that needs no
escapes. -/
structure ReadyConfig (config : StreamingConfig) (text : List Char) : Prop where
  port : 1024 ≤ config.rtspPort ∧ config.rtspPort ≤ 65535
  name : config.rtspStreamName = Utf8.encode text
  plain : PlainText text
  size : config.rtspStreamName.length < streamNameSize

def readyFields (port : ℤ) {name : List Char} (hname : PlainText name) : List Field :=
  [.string "event".toList "stream_ready".toList (by decide) (by decide),
    ⟨"rtsp_port".toList, _, _, by decide, (Prints.int port).spells⟩,
    .string "stream_name".toList name (by decide) hname]

variable {config : StreamingConfig} {name : List Char}

theorem readyMsg_eq (h : ReadyConfig config name) :
    readyMsg config = Utf8.encode (objectText (readyFields config.rtspPort h.plain)) := by
  have hport :
      (Utf8.encode (printInt (config.rtspPort < 0) config.rtspPort.natAbs)).length ≤ 5 := by
    rw [Utf8.length_encode_printable (printable_printInt _ _)]
    have := h.port
    exact Detector.length_printInt_lt (by decide) (by omega) (by omega)
  have hhead : (ascii "\x7b\"event\":\"stream_ready\",\"rtsp_port\":").length = 36 := by decide
  have hmiddle : (ascii ",\"stream_name\":\"").length = 16 := by decide
  have htail : (ascii "\"\x7d").length = 2 := by decide
  have hsize : config.rtspStreamName.length < 64 := h.size
  rw [readyMsg, List.take_of_length_le (by simp only [List.length_append]; omega), h.name]
  simp only [ascii, ← Utf8.encode_append]
  apply congrArg Utf8.encode
  simp [objectText, readyFields, writtenFields, Field.written, Field.string]

theorem handle_ready (h : ReadyConfig config name) (now : ℤ) :
    onMessage now (readyMsg config) =
      some (.streamReady (some config.rtspPort) (some (String.ofList name))) := by
  have hne : readyFields config.rtspPort h.plain ≠ [] := nofun
  have hloads := loads_objectText hne
  have hmap : readMap (objectText (readyFields config.rtspPort h.plain)) =
      some (objectValue (readyFields config.rtspPort h.plain)) :=
    readMap_of_loads hloads
      (show [codes "event".toList, codes "rtsp_port".toList, codes "stream_name".toList].Nodup by
        decide)
  have htype : entry asString "type" (objectValue (readyFields config.rtspPort h.plain)) = none :=
    rfl
  have hevent : entry asString "event" (objectValue (readyFields config.rtspPort h.plain)) =
      some "stream_ready" := asString_codes "stream_ready"
  have hport : entry asDouble "rtsp_port" (objectValue (readyFields config.rtspPort h.plain)) =
      some (config.rtspPort : ℚ) := by
    have hport := h.port
    exact asDouble_int (abs_lt.mpr ⟨by omega, by omega⟩)
  have hname : entry asString "stream_name" (objectValue (readyFields config.rtspPort h.plain)) =
      some (String.ofList name) := by
    have hcodes := asString_codes (String.ofList name)
    rw [String.toList_ofList] at hcodes
    exact hcodes
  have hclamp : (Int32.ofIntClamp config.rtspPort).toInt = config.rtspPort := by
    have hport := h.port
    exact toInt_ofIntClamp ⟨by omega, by omega⟩
  rw [onMessage, readyMsg_eq h, Utf8.decode_encode, Option.bind_some, handleWebSocketMessage, hmap]
  simp only [Option.bind_eq_bind, Option.bind_some, htype, hevent, hport, hname, Option.none_or,
    Option.map_some, toInt_intCast, hclamp]

end SnipeIt.Bridge
