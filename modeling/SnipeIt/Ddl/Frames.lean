import Mathlib.Data.List.OfFn
import Mathlib.Tactic.Common
import SnipeIt.Support.CStruct

/-! # The response frames of the sensors

What the distance and the GPS machine make of the bytes of their response
buffer. The floating-point conversions are the host's.
-/

namespace SnipeIt.Ddl
open Support

/-- `to_little_endian16` and `from_little_endian16`, on the bytes of the value. -/
def littleEndian16 (b0 b1 : UInt8) : UInt16 := b0.toUInt16 ||| b1.toUInt16 <<< 8

def littleEndian32 (b0 b1 b2 b3 : UInt8) : UInt32 :=
  b0.toUInt32 ||| b1.toUInt32 <<< 8 ||| b2.toUInt32 <<< 16 ||| b3.toUInt32 <<< 24

/-- A word that is shifted past all bits of another one is added to it. -/
theorem or_shiftLeft_of_lt {low : ℕ} (high : ℕ) {k : ℕ} (hlow : low < 2 ^ k) :
    low ||| high <<< k = low + high * 2 ^ k := by
  calc low ||| high <<< k = high <<< k ||| low := Nat.or_comm low _
    _ = high <<< k + low := (Nat.shiftLeft_add_eq_or_of_lt hlow high).symm
    _ = low + high * 2 ^ k := by rw [Nat.shiftLeft_eq, Nat.add_comm]

theorem littleEndian16_toNat (b0 b1 : UInt8) :
    (littleEndian16 b0 b1).toNat = leValue [b0, b1] := by
  have h0 : b0.toNat < 2 ^ 8 := b0.toNat_lt
  have h1 : b1.toNat < 2 ^ 8 := b1.toNat_lt
  have hshift : b1.toNat <<< 8 % 2 ^ 16 = b1.toNat <<< 8 := by
    rw [Nat.shiftLeft_eq]
    omega
  simp only [littleEndian16, UInt16.toNat_or, UInt16.toNat_shiftLeft, UInt8.toNat_toUInt16, leValue,
    show (8 : UInt16).toNat % 16 = 8 from rfl, hshift]
  rw [or_shiftLeft_of_lt _ h0]
  omega

theorem littleEndian32_toNat (b0 b1 b2 b3 : UInt8) :
    (littleEndian32 b0 b1 b2 b3).toNat = leValue [b0, b1, b2, b3] := by
  have h0 : b0.toNat < 2 ^ 8 := b0.toNat_lt
  have h1 : b1.toNat < 2 ^ 8 := b1.toNat_lt
  have h2 : b2.toNat < 2 ^ 8 := b2.toNat_lt
  have h3 : b3.toNat < 2 ^ 8 := b3.toNat_lt
  have hshift (b k : ℕ) (hb : b < 2 ^ 8) (hk : k ≤ 24) : b <<< k % 2 ^ 32 = b <<< k := by
    apply Nat.mod_eq_of_lt
    calc b <<< k = b * 2 ^ k := Nat.shiftLeft_eq b k
      _ < 2 ^ 8 * 2 ^ k := Nat.mul_lt_mul_of_pos_right hb (Nat.two_pow_pos k)
      _ ≤ 2 ^ 8 * 2 ^ 24 := Nat.mul_le_mul_left _ (Nat.pow_le_pow_right (by decide) hk)
  simp only [littleEndian32, UInt32.toNat_or, UInt32.toNat_shiftLeft, UInt8.toNat_toUInt32, leValue,
    show (8 : UInt32).toNat % 32 = 8 from rfl, show (16 : UInt32).toNat % 32 = 16 from rfl,
    show (24 : UInt32).toNat % 32 = 24 from rfl, hshift _ _ h1, hshift _ _ h2, hshift _ _ h3,
    Nat.reduceLeDiff]
  have h01 : b0.toNat + b1.toNat * 2 ^ 8 < 2 ^ 16 := by omega
  have h012 : b0.toNat + b1.toNat * 2 ^ 8 + b2.toNat * 2 ^ 16 < 2 ^ 24 := by omega
  rw [or_shiftLeft_of_lt _ h0, or_shiftLeft_of_lt _ h01, or_shiftLeft_of_lt _ h012]
  omega

structure Floats (F D : Type*) where
  /-- `(float)x / 1000.0f` -/
  thousandths : UInt32 → F
  /-- `(float)x / 1000.0f` -/
  signedThousandths : Int32 → F
  /-- `(double)x * 1e-7` -/
  tenMillionths : Int32 → D

/-- What a sensor makes of its response buffer: whether it accepts it, given the time of the last
frame, and the measurement and the time that it takes from it. -/
structure Codec (β μ : Type*) where
  isFrameValid : β → UInt32 → Bool
  measurement : β → μ
  systemTime : β → UInt32

abbrev TOFSenseFrame := Fin 16 → UInt8

namespace TOFSenseFrame

def headerSync : UInt8 := 0x57

def responseMark : UInt8 := 0x00

def frameId : UInt8 := 0x00

def systemTime (frame : TOFSenseFrame) : UInt32 :=
  littleEndian32 (frame 4) (frame 5) (frame 6) (frame 7)

def checksum (frame : TOFSenseFrame) : UInt8 := ((List.ofFn frame).take 15).foldl (· + ·) 0

def isFrameValid (frame : TOFSenseFrame) (oldSystemTime : UInt32) : Bool :=
  if frame 0 ≠ headerSync then false
  else if frame 1 ≠ responseMark then false
  else if frame 3 ≠ frameId then false
  else if frame.systemTime = oldSystemTime then false
  else if frame 15 ≠ frame.checksum then false
  else true

end TOFSenseFrame

structure DistanceMeasurement (F : Type*) where
  distance : F
  status : UInt8
  precision : UInt8
  strength : UInt16

/-- `update_distance_frame`. -/
def DistanceMeasurement.ofFrame {F D : Type*} (floats : Floats F D) (frame : TOFSenseFrame) :
    DistanceMeasurement F where
  distance := floats.thousandths (littleEndian32 0 (frame 8) (frame 9) (frame 10) / 256)
  status := frame 11
  precision := frame 14
  strength := littleEndian16 (frame 12) (frame 13)

def distanceCodec {F D : Type*} (floats : Floats F D) :
    Codec TOFSenseFrame (DistanceMeasurement F) where
  isFrameValid := TOFSenseFrame.isFrameValid
  measurement := .ofFrame floats
  systemTime := TOFSenseFrame.systemTime

def sync1 : UInt8 := 0xB5

def sync2 : UInt8 := 0x62

def ubxChecksum (buf : List UInt8) : UInt8 × UInt8 :=
  buf.foldl (fun sums b => (sums.1 + b, sums.2 + (sums.1 + b))) (0, 0)

abbrev UbxNavPvtFrame := Fin 100 → UInt8

namespace UbxNavPvtFrame

def clsNav : UInt8 := 0x01

def idNavPvt : UInt8 := 0x07

def pvtPayloadLen : UInt16 := 92

def iTow (frame : UbxNavPvtFrame) : UInt32 :=
  littleEndian32 (frame 6) (frame 7) (frame 8) (frame 9)

def isFrameValid (frame : UbxNavPvtFrame) (oldITow : UInt32) : Bool :=
  if frame 0 ≠ sync1 ∨ frame 1 ≠ sync2 then false
  else if frame 2 ≠ clsNav ∨ frame 3 ≠ idNavPvt then false
  else if littleEndian16 (frame 4) (frame 5) ≠ pvtPayloadLen then false
  else if frame.iTow = oldITow then false
  else if (frame 98, frame 99) ≠ ubxChecksum (((List.ofFn frame).drop 2).take 96) then false
  else true

end UbxNavPvtFrame

structure GpsMeasurement (F D : Type*) where
  latitude : D
  longitude : D
  altitude : F
  fixType : UInt8
  numSatellites : UInt8
  hAcc : F

/-- `update_gps_frame`. -/
def GpsMeasurement.ofFrame {F D : Type*} (floats : Floats F D) (frame : UbxNavPvtFrame) :
    GpsMeasurement F D where
  latitude := floats.tenMillionths
    (littleEndian32 (frame 34) (frame 35) (frame 36) (frame 37)).toInt32
  longitude := floats.tenMillionths
    (littleEndian32 (frame 30) (frame 31) (frame 32) (frame 33)).toInt32
  altitude := floats.signedThousandths
    (littleEndian32 (frame 42) (frame 43) (frame 44) (frame 45)).toInt32
  fixType := frame 26
  numSatellites := frame 29
  hAcc := floats.thousandths (littleEndian32 (frame 46) (frame 47) (frame 48) (frame 49))

def gpsCodec {F D : Type*} (floats : Floats F D) : Codec UbxNavPvtFrame (GpsMeasurement F D) where
  isFrameValid := UbxNavPvtFrame.isFrameValid
  measurement := .ofFrame floats
  systemTime := UbxNavPvtFrame.iTow

end SnipeIt.Ddl
