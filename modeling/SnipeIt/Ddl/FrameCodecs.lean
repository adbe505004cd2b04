import Mathlib.Algebra.BigOperators.Fin
import Mathlib.Algebra.Order.Ring.Rat
import Mathlib.Data.Nat.Bitwise
import SnipeIt.Ddl.Frames
import SnipeIt.Support.CStruct
import SnipeIt.Support.Checksum

/-! # The response frames on a host

The frames are structures in the memory of the host, which loads their words in
its own byte order before the little-endian helpers look at the bytes again. The
measurements are exact here: they are rationals.
-/

namespace SnipeIt.Ddl
open Support

/-- `to_little_endian16` and `from_little_endian16`, through the bytes that the host keeps. -/
def toLittleEndian16 (order : ByteOrder) (value : UInt16) : UInt16 :=
  match order.store 2 value.toNat with
  | [b0, b1] => littleEndian16 b0 b1
  | _ => 0

def toLittleEndian32 (order : ByteOrder) (value : UInt32) : UInt32 :=
  match order.store 4 value.toNat with
  | [b0, b1, b2, b3] => littleEndian32 b0 b1 b2 b3
  | _ => 0

def fromLittleEndianI32 (order : ByteOrder) (value : Int32) : Int32 :=
  (toLittleEndian32 order value.toUInt32).toInt32

theorem toLittleEndian16_load (order : ByteOrder) (b0 b1 : UInt8) :
    toLittleEndian16 order (UInt16.ofNat (order.load [b0, b1])) = littleEndian16 b0 b1 := by
  have hlt : order.load [b0, b1] < 2 ^ 16 := by simpa using order.load_lt [b0, b1]
  have hbytes : order.store 2 (order.load [b0, b1]) = [b0, b1] := order.store_load [b0, b1]
  rw [toLittleEndian16, UInt16.toNat_ofNat_of_lt' hlt, hbytes]

theorem toLittleEndian32_load (order : ByteOrder) (b0 b1 b2 b3 : UInt8) :
    toLittleEndian32 order (UInt32.ofNat (order.load [b0, b1, b2, b3])) =
      littleEndian32 b0 b1 b2 b3 := by
  have hlt : order.load [b0, b1, b2, b3] < 2 ^ 32 := by
    simpa using order.load_lt [b0, b1, b2, b3]
  have hbytes : order.store 4 (order.load [b0, b1, b2, b3]) = [b0, b1, b2, b3] :=
    order.store_load [b0, b1, b2, b3]
  rw [toLittleEndian32, UInt32.toNat_ofNat_of_lt' hlt, hbytes]

def exactFloats : Floats ℚ ℚ where
  thousandths x := x.toNat / 1000
  signedThousandths x := x.toInt / 1000
  tenMillionths x := x.toInt * (1 / 10000000)

theorem exactFloats_thousandths (x : UInt32) :
    exactFloats.thousandths x = (x.toNat : ℚ) / 1000 := rfl

theorem exactFloats_signedThousandths (x : Int32) :
    exactFloats.signedThousandths x = (x.toInt : ℚ) / 1000 := rfl

theorem exactFloats_tenMillionths (x : Int32) :
    exactFloats.tenMillionths x = (x.toInt : ℚ) * (1 / 10000000) := rfl

def memberBytes {ι : Type*} [DecidableEq ι] (members : List (Member ι)) (bytes : List UInt8)
    (name : ι) : List UInt8 :=
  (bytes.drop (Member.span members name).1).take (Member.span members name).2

theorem slice_ofFn {α : Type*} {n : ℕ} (f : Fin n → α) (a b : ℕ) (h : a + b ≤ n) :
    ((List.ofFn f).drop a).take b = List.ofFn fun i : Fin b => f ⟨a + i, by omega⟩ := by
  apply List.ext_getElem
  · simp only [List.length_take, List.length_drop, List.length_ofFn]
    omega
  · intro i _ _
    simp

/-! ## Distance -/

inductive TOFSenseMember where
  | header | mark | reserved | id | systemTime | dis1000 | disStatus | signalStrength
  | rangePercision | checksum
  deriving DecidableEq

/-- `TOFSenseFrame`, which is not packed. -/
def tofSenseMembers : List (Member TOFSenseMember) :=
  [.word .header 1, .word .mark 1, .word .reserved 1, .word .id 1, .word .systemTime 4,
    .bytes .dis1000 3, .word .disStatus 1, .word .signalStrength 2, .word .rangePercision 1,
    .word .checksum 1]

example : Member.structSize tofSenseMembers = 16 := rfl

structure DistanceObject where
  valid : Bool
  measurement : DistanceMeasurement ℚ
  retry : ℕ
  systemTime : UInt32

namespace TOFSense

def get (frame : TOFSenseFrame) (name : TOFSenseMember) : List UInt8 :=
  memberBytes tofSenseMembers (List.ofFn frame) name

def get8 (frame : TOFSenseFrame) (name : TOFSenseMember) : UInt8 := (get frame name).headD 0

def systemTime (order : ByteOrder) (frame : TOFSenseFrame) : UInt32 :=
  UInt32.ofNat (order.load (get frame .systemTime))

def signalStrength (order : ByteOrder) (frame : TOFSenseFrame) : UInt16 :=
  UInt16.ofNat (order.load (get frame .signalStrength))

def isFrameValid (order : ByteOrder) (frame : TOFSenseFrame) (oldSystemTime : UInt32) : Bool :=
  if get8 frame .header ≠ TOFSenseFrame.headerSync then false
  else if get8 frame .mark ≠ TOFSenseFrame.responseMark then false
  else if get8 frame .id ≠ TOFSenseFrame.frameId then false
  else if toLittleEndian32 order (systemTime order frame) = oldSystemTime then false
  else if get8 frame .checksum ≠ frame.checksum then false
  else true

def distance (frame : TOFSenseFrame) : UInt32 :=
  match get frame .dis1000 with
  | [d0, d1, d2] =>
    ((0 : UInt32) ||| d0.toUInt32 <<< 8 ||| d1.toUInt32 <<< 16 ||| d2.toUInt32 <<< 24) / 256
  | _ => 0

def updateDistanceFrame (order : ByteOrder) (aobj : DistanceObject) (frame : TOFSenseFrame) :
    DistanceObject :=
  { aobj with
    valid := true
    measurement :=
      { distance := exactFloats.thousandths (distance frame)
        status := get8 frame .disStatus
        precision := get8 frame .rangePercision
        strength := toLittleEndian16 order (signalStrength order frame) }
    systemTime := toLittleEndian32 order (systemTime order frame) }

theorem toLittleEndian32_systemTime (order : ByteOrder) (frame : TOFSenseFrame) :
    toLittleEndian32 order (systemTime order frame) = frame.systemTime :=
  toLittleEndian32_load order (frame 4) (frame 5) (frame 6) (frame 7)

/-- The host sees the frame that the machine is modelled with. -/
theorem isFrameValid_eq (order : ByteOrder) (frame : TOFSenseFrame) (oldSystemTime : UInt32) :
    isFrameValid order frame oldSystemTime = frame.isFrameValid oldSystemTime := by
  rw [isFrameValid, toLittleEndian32_systemTime]
  rfl

theorem updateDistanceFrame_eq (order : ByteOrder) (aobj : DistanceObject) (frame : TOFSenseFrame) :
    updateDistanceFrame order aobj frame =
      ⟨true, .ofFrame exactFloats frame, aobj.retry, frame.systemTime⟩ := by
  have hstrength : toLittleEndian16 order (signalStrength order frame) =
      littleEndian16 (frame 12) (frame 13) := toLittleEndian16_load order (frame 12) (frame 13)
  rw [updateDistanceFrame, toLittleEndian32_systemTime, hstrength]
  rfl

end TOFSense

theorem littleEndian24_toNat (b0 b1 b2 : UInt8) :
    (littleEndian32 0 b0 b1 b2 / 256).toNat = leValue [b0, b1, b2] := by
  have hwhole : (littleEndian32 0 b0 b1 b2).toNat = leValue [0, b0, b1, b2] :=
    littleEndian32_toNat 0 b0 b1 b2
  rw [UInt32.toNat_div, hwhole, leValue, show (256 : UInt32).toNat = 256 from rfl,
    show (0 : UInt8).toNat = 0 from rfl]
  omega

theorem TOFSenseFrame.checksum_eq (frame : TOFSenseFrame) :
    frame.checksum = (List.ofFn fun i : Fin 15 => frame i.castSucc).sum :=
  (Checksum.foldl_add 0 _).trans (zero_add _)

theorem TOFSenseFrame.checksum_toNat (frame : TOFSenseFrame) :
    frame.checksum.toNat = (∑ i : Fin 15, (frame i.castSucc).toNat) % 256 := by
  rw [checksum_eq, Checksum.toNat_sum, List.map_ofFn, List.sum_ofFn]
  rfl

theorem TOFSenseFrame.isFrameValid_iff (frame : TOFSenseFrame) (oldSystemTime : UInt32) :
    frame.isFrameValid oldSystemTime = true ↔
      frame 0 = 0x57 ∧ frame 1 = 0x00 ∧ frame 3 = 0x00 ∧ frame.systemTime ≠ oldSystemTime ∧
        frame 15 = frame.checksum := by
  unfold isFrameValid headerSync responseMark frameId
  split_ifs <;> simp_all

/-- What a distance frame says, with the byte that it leaves open. -/
structure TOFSenseReading where
  reserved : UInt8
  systemTime : UInt32
  /-- In millimetres. -/
  distance : Fin (256 ^ 3)
  status : UInt8
  strength : UInt16
  precision : UInt8

namespace TOFSenseReading

/-- The bytes before the checksum. -/
def body (r : TOFSenseReading) : List UInt8 :=
  [0x57, 0x00, r.reserved, 0x00] ++ leBytes 4 r.systemTime.toNat ++ leBytes 3 r.distance ++
    [r.status] ++ leBytes 2 r.strength.toNat ++ [r.precision]

def encode (r : TOFSenseReading) : TOFSenseFrame := fun i =>
  (r.body ++ [UInt8.ofNat (r.body.map UInt8.toNat).sum]).get ⟨i, i.isLt⟩

theorem encode_systemTime (r : TOFSenseReading) : r.encode.systemTime = r.systemTime := by
  have hlt : r.systemTime.toNat < 256 ^ 4 := r.systemTime.toNat_lt
  have hvalue : r.encode.systemTime.toNat = leValue (leBytes 4 r.systemTime.toNat) :=
    littleEndian32_toNat _ _ _ _
  apply UInt32.toNat_inj.mp
  rw [hvalue, leValue_leBytes, Nat.mod_eq_of_lt hlt]

theorem encode_checksum (r : TOFSenseReading) : r.encode 15 = r.encode.checksum := by
  apply UInt8.toNat_inj.mp
  have hlast : (r.encode 15).toNat = (r.body.map UInt8.toNat).sum % 256 := UInt8.toNat_ofNat'
  have hbody : r.body = List.ofFn fun i : Fin 15 => r.encode i.castSucc := rfl
  rw [hlast, TOFSenseFrame.checksum_toNat, hbody, List.map_ofFn, List.sum_ofFn]
  rfl

theorem encode_isFrameValid (r : TOFSenseReading) (oldSystemTime : UInt32) :
    r.encode.isFrameValid oldSystemTime = true ↔ r.systemTime ≠ oldSystemTime := by
  rw [TOFSenseFrame.isFrameValid_iff, encode_systemTime]
  exact ⟨fun h => h.2.2.2.1, fun h => ⟨rfl, rfl, rfl, h, r.encode_checksum⟩⟩

/-- What an object holds after a frame of this reading. -/
def hold (r : TOFSenseReading) (aobj : DistanceObject) : DistanceObject where
  valid := true
  measurement := ⟨(r.distance : ℕ) / 1000, r.status, r.precision, r.strength⟩
  retry := aobj.retry
  systemTime := r.systemTime

theorem updateDistanceFrame_encode (order : ByteOrder) (aobj : DistanceObject)
    (r : TOFSenseReading) : TOFSense.updateDistanceFrame order aobj r.encode = r.hold aobj := by
  have hdistance : (littleEndian32 0 (r.encode 8) (r.encode 9) (r.encode 10) / 256).toNat =
      r.distance := by
    have hbytes : leValue [r.encode 8, r.encode 9, r.encode 10] = leValue (leBytes 3 r.distance) :=
      rfl
    rw [littleEndian24_toNat, hbytes, leValue_leBytes, Nat.mod_eq_of_lt r.distance.isLt]
  have hstrength : littleEndian16 (r.encode 12) (r.encode 13) = r.strength := by
    have hlt : r.strength.toNat < 256 ^ 2 := r.strength.toNat_lt
    have hbytes : leValue [r.encode 12, r.encode 13] = leValue (leBytes 2 r.strength.toNat) := rfl
    apply UInt16.toNat_inj.mp
    rw [littleEndian16_toNat, hbytes, leValue_leBytes, Nat.mod_eq_of_lt hlt]
  rw [TOFSense.updateDistanceFrame_eq, encode_systemTime, DistanceMeasurement.ofFrame, hstrength,
    exactFloats_thousandths, hdistance]
  rfl

end TOFSenseReading

/-- The codec of the distance frame: in either byte order, exactly the frames with the marks, a new
time and the right checksum are accepted; what is stored are the little-endian words of the wire
format; and decoding undoes encoding. -/
theorem distance_frame_codec (order : ByteOrder) (frame : TOFSenseFrame) (oldSystemTime : UInt32)
    (aobj : DistanceObject) (r : TOFSenseReading) :
    (TOFSense.isFrameValid order frame oldSystemTime = true ↔
      frame 0 = 0x57 ∧ frame 1 = 0x00 ∧ frame 3 = 0x00 ∧
        leValue [frame 4, frame 5, frame 6, frame 7] ≠ oldSystemTime.toNat ∧
        (frame 15).toNat = (∑ i : Fin 15, (frame i.castSucc).toNat) % 256) ∧
      TOFSense.updateDistanceFrame order aobj frame =
        { valid := true
          measurement :=
            { distance := leValue [frame 8, frame 9, frame 10] / 1000
              status := frame 11
              precision := frame 14
              strength := UInt16.ofNat (leValue [frame 12, frame 13]) }
          retry := aobj.retry
          systemTime := UInt32.ofNat (leValue [frame 4, frame 5, frame 6, frame 7]) } ∧
      (TOFSense.isFrameValid order r.encode oldSystemTime = true ↔
        r.systemTime ≠ oldSystemTime) ∧
      TOFSense.updateDistanceFrame order aobj r.encode = r.hold aobj := by
  have htime : frame.systemTime.toNat = leValue [frame 4, frame 5, frame 6, frame 7] :=
    littleEndian32_toNat _ _ _ _
  refine ⟨?_, ?_, ?_, r.updateDistanceFrame_encode order aobj⟩
  · rw [TOFSense.isFrameValid_eq, TOFSenseFrame.isFrameValid_iff, ← htime, UInt32.toNat_inj.ne,
      ← TOFSenseFrame.checksum_toNat, UInt8.toNat_inj]
  · rw [TOFSense.updateDistanceFrame_eq, DistanceMeasurement.ofFrame, ← htime,
      UInt32.ofNat_toNat, ← littleEndian16_toNat, UInt16.ofNat_toNat,
      exactFloats_thousandths, littleEndian24_toNat]
  · rw [TOFSense.isFrameValid_eq, r.encode_isFrameValid]

-- the frame of the unit test, and its mutation in the first byte
example :
    let frame : TOFSenseFrame := ![0x57, 0x00, 0xff, 0x00, 0x9e, 0x8f, 0x00, 0x00, 0xad, 0x08,
      0x00, 0x00, 0x03, 0x00, 0x06, 0x41]
    TOFSense.isFrameValid .little frame 0 = true ∧
      TOFSense.isFrameValid .little (Function.update frame 0 0x80) 0 = false ∧
      TOFSense.systemTime .little frame = 36766 ∧ TOFSense.distance frame = 2221 := by
  decide +kernel

/-! ## GPS -/

inductive UbxNavPvtMember where
  | sync1 | sync2 | msgClass | msgId | payloadLength
  | iTow | year | month | day | hour | min | sec | validFlags | tAcc | nano
  | fixType | flags | flags2 | numSv | lon | lat | height | heightMsl | hAcc | vAcc
  | velN | velE | velD | gSpeed | headMot | sAcc | headAcc | pDop | flags3 | reserved
  | headVeh | magDec | magAcc
  | checksumA | checksumB
  deriving DecidableEq

def ubxNavPvtMembers : List (Member UbxNavPvtMember) :=
  [.packed .sync1 1, .packed .sync2 1, .packed .msgClass 1, .packed .msgId 1,
    .packed .payloadLength 2,
    .packed .iTow 4, .packed .year 2, .packed .month 1, .packed .day 1, .packed .hour 1,
    .packed .min 1, .packed .sec 1, .packed .validFlags 1, .packed .tAcc 4, .packed .nano 4,
    .packed .fixType 1, .packed .flags 1, .packed .flags2 1, .packed .numSv 1,
    .packed .lon 4, .packed .lat 4, .packed .height 4, .packed .heightMsl 4,
    .packed .hAcc 4, .packed .vAcc 4, .packed .velN 4, .packed .velE 4, .packed .velD 4,
    .packed .gSpeed 4, .packed .headMot 4, .packed .sAcc 4, .packed .headAcc 4,
    .packed .pDop 2, .packed .flags3 1, .packed .reserved 5,
    .packed .headVeh 4, .packed .magDec 2, .packed .magAcc 2,
    .packed .checksumA 1, .packed .checksumB 1]

theorem ubxNavPvt_size : Member.structSize ubxNavPvtMembers = 100 := by decide +kernel

structure GPSObject where
  valid : Bool
  measurement : GpsMeasurement ℚ ℚ
  retry : ℕ
  systemTime : UInt32

namespace UbxNavPvt

def get (frame : UbxNavPvtFrame) (name : UbxNavPvtMember) : List UInt8 :=
  memberBytes ubxNavPvtMembers (List.ofFn frame) name

def get8 (frame : UbxNavPvtFrame) (name : UbxNavPvtMember) : UInt8 := (get frame name).headD 0

def get16 (order : ByteOrder) (frame : UbxNavPvtFrame) (name : UbxNavPvtMember) : UInt16 :=
  UInt16.ofNat (order.load (get frame name))

def get32 (order : ByteOrder) (frame : UbxNavPvtFrame) (name : UbxNavPvtMember) : UInt32 :=
  UInt32.ofNat (order.load (get frame name))

def getI32 (order : ByteOrder) (frame : UbxNavPvtFrame) (name : UbxNavPvtMember) : Int32 :=
  (get32 order frame name).toInt32

def isFrameValid (order : ByteOrder) (frame : UbxNavPvtFrame) (oldITow : UInt32) : Bool :=
  if get8 frame .sync1 ≠ sync1 ∨ get8 frame .sync2 ≠ sync2 then false
  else if get8 frame .msgClass ≠ UbxNavPvtFrame.clsNav ∨
      get8 frame .msgId ≠ UbxNavPvtFrame.idNavPvt then false
  else if toLittleEndian16 order (get16 order frame .payloadLength) ≠
      UbxNavPvtFrame.pvtPayloadLen then false
  else if toLittleEndian32 order (get32 order frame .iTow) = oldITow then false
  else if (get8 frame .checksumA, get8 frame .checksumB) ≠
      ubxChecksum (((List.ofFn frame).drop 2).take (Member.structSize ubxNavPvtMembers - 4)) then
    false
  else true

def updateGpsFrame (order : ByteOrder) (aobj : GPSObject) (frame : UbxNavPvtFrame) : GPSObject :=
  { aobj with
    valid := true
    measurement :=
      { latitude := exactFloats.tenMillionths (fromLittleEndianI32 order (getI32 order frame .lat))
        longitude :=
          exactFloats.tenMillionths (fromLittleEndianI32 order (getI32 order frame .lon))
        altitude :=
          exactFloats.signedThousandths
            (fromLittleEndianI32 order (getI32 order frame .heightMsl))
        fixType := get8 frame .fixType
        numSatellites := get8 frame .numSv
        hAcc := exactFloats.thousandths (toLittleEndian32 order (get32 order frame .hAcc)) }
    systemTime := toLittleEndian32 order (get32 order frame .iTow) }

theorem get_eq {frame : UbxNavPvtFrame} {name : UbxNavPvtMember} {a b : ℕ}
    (hspan : Member.span ubxNavPvtMembers name = (a, b)) (h : a + b ≤ 100) :
    get frame name = List.ofFn fun i : Fin b => frame ⟨a + i, by omega⟩ := by
  rw [get, memberBytes, hspan, slice_ofFn _ _ _ h]

theorem get8_eq {frame : UbxNavPvtFrame} {name : UbxNavPvtMember} {a : ℕ}
    (hspan : Member.span ubxNavPvtMembers name = (a, 1)) (h : a < 100) :
    get8 frame name = frame ⟨a, h⟩ := by
  rw [get8, get_eq hspan h]
  rfl

theorem toLittleEndian32_get32 (order : ByteOrder) {frame : UbxNavPvtFrame}
    {name : UbxNavPvtMember} {a : ℕ} (hspan : Member.span ubxNavPvtMembers name = (a, 4))
    (h : a + 4 ≤ 100) :
    toLittleEndian32 order (get32 order frame name) =
      littleEndian32 (frame ⟨a, by omega⟩) (frame ⟨a + 1, by omega⟩) (frame ⟨a + 2, by omega⟩)
        (frame ⟨a + 3, by omega⟩) := by
  rw [get32, get_eq hspan h]
  exact toLittleEndian32_load order _ _ _ _

theorem fromLittleEndianI32_getI32 (order : ByteOrder) {frame : UbxNavPvtFrame}
    {name : UbxNavPvtMember} {a : ℕ} (hspan : Member.span ubxNavPvtMembers name = (a, 4))
    (h : a + 4 ≤ 100) :
    fromLittleEndianI32 order (getI32 order frame name) =
      (littleEndian32 (frame ⟨a, by omega⟩) (frame ⟨a + 1, by omega⟩) (frame ⟨a + 2, by omega⟩)
        (frame ⟨a + 3, by omega⟩)).toInt32 := by
  rw [getI32, fromLittleEndianI32, UInt32.toUInt32_toInt32, toLittleEndian32_get32 order hspan h]

/-- The host sees the frame that the machine is modelled with. -/
theorem isFrameValid_eq (order : ByteOrder) (frame : UbxNavPvtFrame) (oldITow : UInt32) :
    isFrameValid order frame oldITow = frame.isFrameValid oldITow := by
  have hlength : toLittleEndian16 order (get16 order frame .payloadLength) =
      littleEndian16 (frame 4) (frame 5) := by
    rw [get16, get_eq (a := 4) (b := 2) rfl (by omega)]
    exact toLittleEndian16_load order _ _
  have htime : toLittleEndian32 order (get32 order frame .iTow) = frame.iTow :=
    toLittleEndian32_get32 order (a := 6) rfl (by omega)
  rw [isFrameValid, UbxNavPvtFrame.isFrameValid, hlength, htime, ubxNavPvt_size,
    get8_eq (a := 0) rfl (by omega), get8_eq (a := 1) rfl (by omega),
    get8_eq (a := 2) rfl (by omega), get8_eq (a := 3) rfl (by omega),
    get8_eq (a := 98) (by decide +kernel) (by omega),
    get8_eq (a := 99) (by decide +kernel) (by omega)]
  rfl

theorem updateGpsFrame_eq (order : ByteOrder) (aobj : GPSObject) (frame : UbxNavPvtFrame) :
    updateGpsFrame order aobj frame =
      ⟨true, .ofFrame exactFloats frame, aobj.retry, frame.iTow⟩ := by
  rw [updateGpsFrame, fromLittleEndianI32_getI32 order (a := 34) rfl (by omega),
    fromLittleEndianI32_getI32 order (a := 30) rfl (by omega),
    fromLittleEndianI32_getI32 order (a := 42) rfl (by omega),
    toLittleEndian32_get32 order (a := 46) rfl (by omega),
    toLittleEndian32_get32 order (a := 6) rfl (by omega), get8_eq (a := 26) rfl (by omega),
    get8_eq (a := 29) rfl (by omega)]
  rfl

end UbxNavPvt

/-- Read in two's complement. -/
def toSigned32 (n : ℕ) : ℤ := if n < 2 ^ 31 then n else n - 2 ^ 32

theorem toInt32_toInt (x : UInt32) : x.toInt32.toInt = toSigned32 x.toNat := by
  have hcases : x.toInt32.toInt =
      if 2 * x.toNat < 2 ^ 32 then (x.toNat : ℤ) else x.toNat - (2 ^ 32 : ℕ) :=
    BitVec.toInt_eq_toNat_cond x.toBitVec
  rw [hcases, toSigned32]
  split_ifs <;> omega

namespace UbxNavPvtFrame

/-- The little-endian value of the bytes at an offset into the payload. -/
def payloadValue (frame : UbxNavPvtFrame) (offset size : ℕ) : ℕ :=
  leValue (((List.ofFn frame).drop (6 + offset)).take size)

theorem littleEndian32_payload (frame : UbxNavPvtFrame) (offset : ℕ) (h : offset + 10 ≤ 100) :
    (littleEndian32 (frame ⟨6 + offset, by omega⟩) (frame ⟨6 + offset + 1, by omega⟩)
      (frame ⟨6 + offset + 2, by omega⟩) (frame ⟨6 + offset + 3, by omega⟩)).toNat =
      frame.payloadValue offset 4 := by
  rw [littleEndian32_toNat, payloadValue, slice_ofFn _ _ _ (by omega)]
  rfl

def checked (frame : UbxNavPvtFrame) : List UInt8 :=
  List.ofFn fun i : Fin 96 => frame ⟨2 + i, by omega⟩

theorem ubxChecksum_eq (bs : List UInt8) : ubxChecksum bs = (bs.sum, Checksum.runningSum bs) :=
  Checksum.fletcherFrom_zero bs

theorem isFrameValid_iff (frame : UbxNavPvtFrame) (oldITow : UInt32) :
    frame.isFrameValid oldITow = true ↔
      frame 0 = 0xB5 ∧ frame 1 = 0x62 ∧ frame 2 = 0x01 ∧ frame 3 = 0x07 ∧
        littleEndian16 (frame 4) (frame 5) = 92 ∧ frame.iTow ≠ oldITow ∧
        frame 98 = frame.checked.sum ∧ frame 99 = Checksum.runningSum frame.checked := by
  have hchecked : ((List.ofFn frame).drop 2).take 96 = frame.checked :=
    slice_ofFn frame 2 96 (by omega)
  rw [isFrameValid, hchecked, ubxChecksum_eq]
  clear hchecked
  unfold sync1 sync2 clsNav idNavPvt pvtPayloadLen
  generalize frame.checked.sum = sum, Checksum.runningSum frame.checked = running
  split_ifs <;> grind

theorem checked_sum (frame : UbxNavPvtFrame) :
    frame.checked.sum.toNat = (∑ i : Fin 96, (frame ⟨2 + i, by omega⟩).toNat) % 256 := by
  rw [Checksum.toNat_sum, checked, List.map_ofFn, List.sum_ofFn]
  rfl

theorem checked_runningSum (frame : UbxNavPvtFrame) :
    (Checksum.runningSum frame.checked).toNat =
      (∑ i : Fin 96, (96 - i.val) * (frame ⟨2 + i, by omega⟩).toNat) % 256 := by
  rw [Checksum.toNat_runningSum, checked, List.map_ofFn, Checksum.runningSum_ofFn]
  rfl

end UbxNavPvtFrame

/-- The codec of the UBX-NAV-PVT frame: in either byte order, exactly the frames with the marks, a
new time of week and the right Fletcher sums are accepted, and what is stored are the fields at
their offsets into the payload. -/
theorem ubx_nav_pvt_codec (order : ByteOrder) (frame : UbxNavPvtFrame) (oldITow : UInt32)
    (aobj : GPSObject) :
    (UbxNavPvt.isFrameValid order frame oldITow = true ↔
      frame 0 = 0xB5 ∧ frame 1 = 0x62 ∧ frame 2 = 0x01 ∧ frame 3 = 0x07 ∧
        leValue [frame 4, frame 5] = 92 ∧ frame.payloadValue 0 4 ≠ oldITow.toNat ∧
        (frame 98).toNat = (∑ i : Fin 96, (frame ⟨2 + i, by omega⟩).toNat) % 256 ∧
        (frame 99).toNat =
          (∑ i : Fin 96, (96 - i.val) * (frame ⟨2 + i, by omega⟩).toNat) % 256) ∧
      UbxNavPvt.updateGpsFrame order aobj frame =
        { valid := true
          measurement :=
            { latitude := toSigned32 (frame.payloadValue 28 4) * (1 / 10000000)
              longitude := toSigned32 (frame.payloadValue 24 4) * (1 / 10000000)
              altitude := toSigned32 (frame.payloadValue 36 4) / 1000
              fixType := frame 26
              numSatellites := frame 29
              hAcc := frame.payloadValue 40 4 / 1000 }
          retry := aobj.retry
          systemTime := UInt32.ofNat (frame.payloadValue 0 4) } := by
  have htime : frame.iTow.toNat = frame.payloadValue 0 4 :=
    frame.littleEndian32_payload 0 (by omega)
  have hlength : littleEndian16 (frame 4) (frame 5) = 92 ↔ leValue [frame 4, frame 5] = 92 := by
    rw [← littleEndian16_toNat, ← UInt16.toNat_inj]
    rfl
  constructor
  · rw [UbxNavPvt.isFrameValid_eq, UbxNavPvtFrame.isFrameValid_iff, hlength, ← htime,
      UInt32.toNat_inj.ne, ← UbxNavPvtFrame.checked_sum, ← UbxNavPvtFrame.checked_runningSum,
      UInt8.toNat_inj, UInt8.toNat_inj]
  · rw [UbxNavPvt.updateGpsFrame_eq, GpsMeasurement.ofFrame, exactFloats_tenMillionths,
      exactFloats_tenMillionths, exactFloats_signedThousandths, exactFloats_thousandths,
      toInt32_toInt, toInt32_toInt, toInt32_toInt, ← htime, UInt32.ofNat_toNat]
    rw [← frame.littleEndian32_payload 28 (by omega), ← frame.littleEndian32_payload 24 (by omega),
      ← frame.littleEndian32_payload 36 (by omega), ← frame.littleEndian32_payload 40 (by omega)]
    rfl

end SnipeIt.Ddl
