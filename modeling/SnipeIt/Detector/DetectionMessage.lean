import SnipeIt.Detector.Letterbox
import SnipeIt.Ipc.Connection
import SnipeIt.Support.JsonDumps

/-! # The messages of the detector (`ipc_client.py`)

Detections are sent as one line of JSON. A line is short enough for the buffers of
the server if there are not too many detections in it.
-/

namespace SnipeIt.Detector
open Support Json Utf8

def key (name : String) : List ℕ := codes name.toList

/-- `make_detection`; the confidence is a number below the ones that `repr` writes with an
exponent. -/
def makeDetection (d : DetectionPayload ℚ) : Json :=
  .object [(key "id", .string (key d.detectionId)),
    (key "class", .string (key d.objClass)),
    (key "confidence", .float (Decimal.shortest 3 d.confidence)),
    (key "bbox", .object [(key "x", .int d.bbox.x), (key "y", .int d.bbox.y),
      (key "width", .int d.bbox.width), (key "height", .int d.bbox.height)])]

def detectionMessage (timestampMs : ℤ) (detections : List (DetectionPayload ℚ)) : Json :=
  .object [(key "type", .string (key "target_detection")), (key "timestamp_ms", .int timestampMs),
    (key "detections", .array (detections.map makeDetection))]

/-- The bytes in front of the newline that `send_raw` and `send_detection` pass to `sendall`. -/
def sendRaw (data : Json) : List UInt8 := encode (dumps data)

def sendDetection (timestampMs : ℤ) (detections : List (DetectionPayload ℚ)) : List UInt8 :=
  sendRaw (detectionMessage timestampMs detections)

theorem isPointed_shortest (places : ℕ) (q : ℚ) : IsPointed (Decimal.shortest places q) :=
  ⟨q < 0, _, _, (Decimal.trimZeros_digits (digits_leftpad places _).2).1,
    (Decimal.trimZeros_digits (digits_leftpad places _).2).2, rfl⟩

theorem dumpable_makeDetection (d : DetectionPayload ℚ) : Dumpable (makeDetection d) := by
  have hkey (name : String) : IsText (key name) := isText_codes name.toList
  refine .object (by simp [hkey]) ?_
  simp only [List.mem_cons, List.not_mem_nil, or_false, forall_eq_or_imp, forall_eq]
  refine ⟨.string (hkey _), .string (hkey _), .float (isPointed_shortest 3 _), .object ?_ ?_⟩
  · simp [hkey]
  · simp [Dumpable.int]

theorem dumpable_detectionMessage (timestampMs : ℤ) (detections : List (DetectionPayload ℚ)) :
    Dumpable (detectionMessage timestampMs detections) := by
  have hkey (name : String) : IsText (key name) := isText_codes name.toList
  refine .object (by simp [hkey]) ?_
  simp only [List.mem_cons, List.not_mem_nil, or_false, forall_eq_or_imp, forall_eq]
  refine ⟨.string (hkey _), .int _, .array fun v hv => ?_⟩
  obtain ⟨d, -, rfl⟩ := List.mem_map.mp hv
  exact dumpable_makeDetection d

/-- What is sent has no newline and no zero byte in it. -/
theorem sendRaw_line {data : Json} (h : Dumpable data) :
    Ipc.lf ∉ sendRaw data ∧ Ipc.nul ∉ sendRaw data := by
  exact ⟨not_mem_encode_printable h.printable (by decide),
    not_mem_encode_printable h.printable (by decide)⟩

/-! ## Its length -/

/-- The lines of a camera: coordinates of at most four digits, and less than a hundred of them. -/
structure Fits (timestampMs : ℤ) (detections : List (DetectionPayload ℚ)) : Prop where
  timestamp : 0 ≤ timestampMs ∧ timestampMs < 10 ^ 13
  id : ∀ d ∈ detections, d.detectionId.toList.length ≤ 2 ∧
    ∀ c ∈ d.detectionId.toList, IsPlain c ∧ c.toNat < 127
  objClass : ∀ d ∈ detections, d.objClass = "HUMAN"
  confidence : ∀ d ∈ detections, 0 ≤ d.confidence ∧ d.confidence ≤ 1
  box : ∀ d ∈ detections, d.bbox.Inside 1920 1080
  count : detections.length ≤ 39

theorem length_printInt_lt {n : ℤ} {k : ℕ} (hk : 0 < k) (hn : 0 ≤ n) (hlt : n < 10 ^ k) :
    (printInt (n < 0) n.natAbs).length ≤ k := by
  have hneg : decide (n < 0) = false := decide_eq_false (by omega)
  have habs : n.natAbs < 10 ^ k := by
    zify
    rwa [abs_of_nonneg hn]
  have hdigits := (Nat.length_toDigits_le_iff (b := 10) (by decide) hk).mpr habs
  simpa [printInt, hneg] using hdigits

theorem length_shortest_confidence {q : ℚ} (h : 0 ≤ q ∧ q ≤ 1) :
    (Decimal.shortest 3 q).length ≤ 6 :=
  Decimal.length_shortest_le (m := 1) (k := 1) (by decide) (by decide)
    (by rw [abs_of_nonneg h.1]; exact_mod_cast h.2) (by decide)

theorem length_keys : (dumpString (key "id")).length = 4 ∧ (dumpString (key "class")).length = 7 ∧
    (dumpString (key "confidence")).length = 12 ∧ (dumpString (key "bbox")).length = 6 ∧
    (dumpString (key "x")).length = 3 ∧ (dumpString (key "y")).length = 3 ∧
    (dumpString (key "width")).length = 7 ∧ (dumpString (key "height")).length = 8 ∧
    (dumpString (key "HUMAN")).length = 7 ∧ (dumpString (key "type")).length = 6 ∧
    (dumpString (key "target_detection")).length = 18 ∧
    (dumpString (key "timestamp_ms")).length = 14 ∧
    (dumpString (key "detections")).length = 12 := by decide

theorem length_makeDetection {timestampMs : ℤ} {detections : List (DetectionPayload ℚ)}
    (h : Fits timestampMs detections) {d : DetectionPayload ℚ} (hd : d ∈ detections) :
    (dumps (makeDetection d)).length ≤ 101 := by
  obtain ⟨hid, hplain⟩ := h.id d hd
  obtain ⟨hx, hy, hw, hh, hright, hbottom⟩ := h.box d hd
  have hidLength : (dumpString (key d.detectionId)).length ≤ 4 := by
    rw [key, dumpString_codes hplain, List.length_cons, List.length_append, List.length_singleton]
    omega
  have hconfidence := length_shortest_confidence (h.confidence d hd)
  have hxLength := length_printInt_lt (k := 4) (by decide) hx (by omega)
  have hyLength := length_printInt_lt (k := 4) (by decide) hy (by omega)
  have hwLength := length_printInt_lt (k := 4) (by decide) (by omega : 0 ≤ d.bbox.width) (by omega)
  have hhLength := length_printInt_lt (k := 4) (by decide) (by omega : 0 ≤ d.bbox.height)
    (by omega)
  have hkeys := length_keys
  rw [makeDetection, h.objClass d hd]
  simp only [dumps, dumpMembers, dumpMember, List.length_append, List.length_cons, List.length_nil]
  omega

theorem length_dumpElements_le {elements : List Json} {k : ℕ}
    (h : ∀ v ∈ elements, (dumps v).length ≤ k) :
    (dumpElements elements).length ≤ elements.length * (k + 1) + 1 := by
  induction elements with
  | nil => simp [dumpElements]
  | cons v elements ih =>
    have hv := h v List.mem_cons_self
    have hrest := ih fun w hw => h w (List.mem_cons_of_mem v hw)
    cases elements with
    | nil =>
      rw [dumpElements, List.length_append, List.length_singleton, List.length_singleton]
      omega
    | cons next elements =>
      rw [dumpElements, List.length_append, List.length_cons, List.length_cons, Nat.succ_mul]
      omega

/-- At most 39 detections are short enough for all buffers on their way. -/
theorem length_sendDetection {timestampMs : ℤ} {detections : List (DetectionPayload ℚ)}
    (h : Fits timestampMs detections) :
    0 < (sendDetection timestampMs detections).length ∧
      (sendDetection timestampMs detections).length ≤ 4051 := by
  have hprint := (dumpable_detectionMessage timestampMs detections).printable
  have htimestamp := length_printInt_lt (k := 13) (by decide) h.timestamp.1 h.timestamp.2
  have helement : ∀ v ∈ detections.map makeDetection, (dumps v).length ≤ 101 := by
    intro v hv
    obtain ⟨d, hd, rfl⟩ := List.mem_map.mp hv
    exact length_makeDetection h hd
  have helements := length_dumpElements_le helement
  have hkeys := length_keys
  have hcount := h.count
  rw [List.length_map] at helements
  rw [sendDetection, sendRaw, length_encode_printable hprint, detectionMessage]
  simp only [dumps, dumpMembers, dumpMember, List.length_append, List.length_cons, List.length_nil]
  omega

/-- An identifier of a detection is a number. -/
theorem repr_id {n : ℕ} (h : n < 100) : n.repr.toList.length ≤ 2 ∧
    ∀ c ∈ n.repr.toList, IsPlain c ∧ c.toNat < 127 := by
  rw [Nat.repr, String.toList_ofList]
  refine ⟨(Nat.length_toDigits_le_iff (b := 10) (by decide) (by decide)).mpr h, fun c hc => ?_⟩
  have hdigit : c.isDigit = true := Nat.isDigit_of_mem_toDigits (by decide) (by decide) hc
  simp only [Char.isDigit, ge_iff_le, UInt32.le_iff_toNat_le, Bool.and_eq_true,
    decide_eq_true_eq] at hdigit
  have hrange : 48 ≤ c.toNat ∧ c.toNat ≤ 57 := hdigit
  refine ⟨⟨?_, ?_, by omega⟩, by omega⟩
  · rintro rfl
    exact absurd hrange (by decide)
  · rintro rfl
    exact absurd hrange (by decide)

theorem fits_detectionsPayload {d : EdgeTPUPersonDetector ℚ} {output : ModelOutput ℚ}
    {dets : List (Detection ℚ)} (hdets : detect d 1280 720 output = some dets)
    (hscore : ∀ det ∈ dets, 0 ≤ det.score ∧ det.score ≤ 1) (hcount : dets.length ≤ 39)
    {timestampMs : ℤ} (htimestamp : 0 ≤ timestampMs ∧ timestampMs < 10 ^ 13) :
    Fits timestampMs (detectionsPayload dets) where
  timestamp := htimestamp
  id := by
    intro p hp
    obtain ⟨⟨det, i⟩, hdet, rfl⟩ := List.mem_map.mp hp
    have hi := (List.mem_zipIdx' hdet).1
    exact repr_id (by omega)
  objClass := by
    intro p hp
    obtain ⟨det, -, rfl⟩ := List.mem_map.mp hp
    rfl
  confidence := by
    intro p hp
    obtain ⟨⟨det, i⟩, hdet, rfl⟩ := List.mem_map.mp hp
    exact hscore det (List.fst_mem_of_mem_zipIdx hdet)
  box := payload_inside (detect_inside hdets)
  count := by
    rw [detectionsPayload, List.length_map, List.length_zipIdx]
    exact hcount

end SnipeIt.Detector
