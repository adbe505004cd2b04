import SnipeIt.Ddl.Frames
import SnipeIt.Ddl.Servo
import SnipeIt.Hal.I2c
import SnipeIt.Support.Quantize

/-! # Servo angles in the registers of the driver

An angle is clamped, rounded to a count of twelve bits, and split over two of the
four registers of its channel. The driver keeps what a transfer has stored from
the register on that the message names.
-/

namespace SnipeIt.Ddl.Pca9685
open Support

def regLed0OnL : ℕ := 0x06

/-- `LEDn_BASE`. -/
def ledBase (channel : UInt8) : ℕ := regLed0OnL + 4 * channel.toNat

def pwmData (on off : UInt16) : List UInt8 :=
  [(on &&& 0xFF).toUInt8, ((on >>> 8) &&& 0x0F).toUInt8,
    (off &&& 0xFF).toUInt8, ((off >>> 8) &&& 0x0F).toUInt8]

def edge (low high : UInt8) : UInt16 := low.toUInt16 ||| ((high &&& 0x0F).toUInt16 <<< 8)

/-- `pca9685_set_pwm`, where `answer` is the result of the transfer, which changes nothing if it
fails. -/
def setPwm (registers : ℕ → UInt8) (answer : Status) (channel : UInt8) (on off : UInt16) :
    Status × (ℕ → UInt8) :=
  if 15 < channel then (.invalidValue, registers)
  else (answer,
    if answer = .successful then Memory.write registers (ledBase channel) (pwmData on off)
    else registers)

def getPwm (registers : ℕ → UInt8) (answer : Status) (channel : UInt8) :
    Status × Option (UInt16 × UInt16) :=
  if 15 < channel then (.invalidValue, none)
  else if answer ≠ .successful then (answer, none)
  else
    let data := fun i => registers (ledBase channel + i)
    (.successful, some (edge (data 0) (data 1), edge (data 2) (data 3)))

def setAngle (registers : ℕ → UInt8) (answer : Status) (channel : UInt8) (angle : ℚ) :
    Status × (ℕ → UInt8) :=
  setPwm registers answer channel 0 (UInt16.ofNat (angleCounts angle))

/-- `servo_get_angle` with the angle that it stores, unless it is passed `NULL`. -/
def getAngle (registers : ℕ → UInt8) (answer : Status) (channel : UInt8) (outAngle : Bool) :
    Status × Option ℚ :=
  if outAngle = false then (.nullParam, none)
  else
    match getPwm registers answer channel with
    | (status, none) => (status, none)
    | (status, some (_, off)) => (status, some (countsAngle off.toNat))

/-! ## The registers -/

theorem toNat_edge (low high : UInt8) :
    (edge low high).toNat = high.toNat % 16 * 256 + low.toNat := by
  have hmask : high.toNat &&& 15 = high.toNat % 16 := Nat.and_two_pow_sub_one_eq_mod high.toNat 4
  have hword : edge low high = littleEndian16 low (high &&& 0x0F) := rfl
  have hhigh : (high &&& 0x0F).toNat = high.toNat % 16 := by
    rw [UInt8.toNat_and]
    exact hmask
  rw [hword, littleEndian16_toNat, leValue, leValue, leValue, hhigh]
  omega

theorem edge_split (v : UInt16) (h : v.toNat < pwmSteps) :
    edge (v &&& 0xFF).toUInt8 ((v >>> 8) &&& 0x0F).toUInt8 = v := by
  have hv : v.toNat < 4096 := h
  have hlow : (v &&& 0xFF).toUInt8.toNat = v.toNat % 256 := by
    have hmask : v.toNat % 256 &&& 255 = v.toNat % 256 % 256 :=
      Nat.and_two_pow_sub_one_eq_mod (v.toNat % 256) 8
    simp [hmask]
  have hhigh : ((v >>> 8) &&& 0x0F).toUInt8.toNat = v.toNat / 256 % 16 := by
    have hmask : v.toNat / 256 % 256 &&& 15 = v.toNat / 256 % 256 % 16 :=
      Nat.and_two_pow_sub_one_eq_mod (v.toNat / 256 % 256) 4
    simp [Nat.shiftRight_eq_div_pow, hmask]
  apply UInt16.toNat_inj.mp
  rw [toNat_edge, hlow, hhigh]
  omega

variable {registers : ℕ → UInt8} {channel : UInt8}

theorem channel_refused (h : 15 < channel) (answer : Status) (a : ℚ) :
    setAngle registers answer channel a = (.invalidValue, registers) ∧
      getAngle registers answer channel true = (.invalidValue, none) := by
  constructor
  · rw [setAngle, setPwm, if_pos h]
  · rw [getAngle, if_neg (by decide), getPwm, if_pos h]

theorem setPwm_accepted (h : channel ≤ 15) (on off : UInt16) :
    setPwm registers .successful channel on off =
      (.successful, Memory.write registers (ledBase channel) (pwmData on off)) := by
  rw [setPwm, if_neg (UInt8.not_lt.mpr h), if_pos rfl]

theorem getPwm_accepted (h : channel ≤ 15) (registers : ℕ → UInt8) :
    getPwm registers .successful channel =
      (.successful,
        some (edge (registers (ledBase channel)) (registers (ledBase channel + 1)),
          edge (registers (ledBase channel + 2)) (registers (ledBase channel + 3)))) := by
  rw [getPwm, if_neg (UInt8.not_lt.mpr h), if_neg (not_not.mpr rfl)]
  rfl

theorem getPwm_setPwm (h : channel ≤ 15) (on off : UInt16) (hon : on.toNat < pwmSteps)
    (hoff : off.toNat < pwmSteps) :
    getPwm (setPwm registers .successful channel on off).2 .successful channel =
      (.successful, some (on, off)) := by
  have hread := Memory.read_write_self registers (ledBase channel) (pwmData on off)
  simp only [pwmData, List.length_cons, List.length_nil, Memory.read_succ, Memory.read_zero,
    List.cons.injEq, and_true] at hread
  obtain ⟨honLow, honHigh, hoffLow, hoffHigh⟩ := hread
  rw [setPwm_accepted h, getPwm_accepted h]
  dsimp only [pwmData]
  rw [honLow, honHigh, hoffLow, hoffHigh,
    edge_split on hon, edge_split off hoff]

/-- The message of the transfer names the first register of the channel. -/
theorem setPwm_message (device : Hal.I2c.Device) (stack : ℕ → UInt8) (ok : Bool) (on off : UInt16) :
    (Hal.I2c.writeReg device 0 (UInt16.ofNat (ledBase channel)) 1
      (some (Memory.write stack 0 (pwmData on off))) 4 stack ok).Writes
      (UInt16.ofNat (ledBase channel)) 1 (some (Memory.write stack 0 (pwmData on off))) 4 := by
  apply (Hal.I2c.writes_iff (by decide) stack).mpr
  right
  exact ⟨by decide, .inl (by decide)⟩

/-! ## The scale -/

def servoScale : Scale ℚ where
  lo := 0
  hi := 180
  offset := 512 / 5
  slope := 512 / 225
  lo_le_hi := by norm_num
  slope_pos := by norm_num
  nonneg := by norm_num

theorem clampf_eq (x lo hi : ℚ) : clampf x lo hi = clamp lo hi x := rfl

theorem angleCounts_eq (a : ℚ) : angleCounts a = servoScale.counts a := by
  have hlo : 0 ≤ clamp (0 : ℚ) 180 a := le_clamp (by norm_num) a
  have hhi : clamp (0 : ℚ) 180 a ≤ 180 := clamp_le (by norm_num) a
  rw [angleCounts, pulseUsToCounts, Scale.counts, Scale.exact]
  simp only [clampf_eq, servoScale, servoMinAngle, servoMaxAngle, servoMinPulseUs, servoMaxPulseUs,
    countsPerUs, pwmSteps, pwmFreqHz]
  rw [clamp_of_mem]
  · congr 1
    push_cast
    ring
  · push_cast
    linarith
  · push_cast
    linarith

theorem countsAngle_eq {n : ℕ} (h : n < pwmSteps) : countsAngle n = servoScale.quantity n := by
  rw [countsAngle, Nat.mod_eq_of_lt h, clampf_eq, Scale.quantity]
  simp only [servoScale, countsToPulseUs, servoMinAngle, servoMaxAngle, servoMinPulseUs,
    servoMaxPulseUs, countsPerUs, pwmSteps, pwmFreqHz]
  congr 1
  push_cast
  ring

/-- No angle needs more than twelve bits. -/
theorem angleCounts_le (a : ℚ) : angleCounts a ≤ 512 := by
  rw [angleCounts_eq]
  apply servoScale.counts_le
  norm_num [servoScale]

theorem toNat_angleCounts (a : ℚ) : (UInt16.ofNat (angleCounts a)).toNat = angleCounts a := by
  have hle := angleCounts_le a
  rw [UInt16.toNat_ofNat']
  omega

theorem getPwm_setAngle (h : channel ≤ 15) (a : ℚ) :
    getPwm (setAngle registers .successful channel a).2 .successful channel =
      (.successful, some (0, UInt16.ofNat (angleCounts a))) := by
  apply getPwm_setPwm h
  · decide
  · rw [toNat_angleCounts]
    exact (angleCounts_le a).trans_lt (by decide)

theorem getAngle_setAngle (h : channel ≤ 15) (a : ℚ) :
    getAngle (setAngle registers .successful channel a).2 .successful channel true =
      (.successful, some (countsAngle (angleCounts a))) := by
  rw [getAngle, if_neg (by decide), getPwm_setAngle h]
  dsimp only
  rw [toNat_angleCounts]

/-- What one angle leaves in the registers of its channel: a count that fits twelve bits and is read
back as it is, more for a greater angle, whose angle is within 0.22 degrees of the clamped one and
is encoded by the same registers. -/
theorem angle_codec (registers : ℕ → UInt8) (channel : UInt8) (hchannel : channel ≤ 15) (a : ℚ) :
    ∃ registers' b,
      setAngle registers .successful channel a = (.successful, registers') ∧
      angleCounts a ≤ pwmSteps - 1 ∧
      getPwm registers' .successful channel =
        (.successful, some (0, UInt16.ofNat (angleCounts a))) ∧
      (UInt16.ofNat (angleCounts a)).toNat = angleCounts a ∧
      (∀ a', a ≤ a' → angleCounts a ≤ angleCounts a') ∧
      getAngle registers' .successful channel true = (.successful, some b) ∧
      |b - clampf a servoMinAngle servoMaxAngle| ≤ 22 / 100 ∧
      angleCounts b = angleCounts a ∧
      setAngle registers' .successful channel b = (.successful, registers') := by
  have hle := angleCounts_le a
  have hlt : angleCounts a < pwmSteps := hle.trans_lt (by decide)
  have hback : angleCounts (countsAngle (angleCounts a)) = angleCounts a := by
    rw [countsAngle_eq hlt, angleCounts_eq a, angleCounts_eq, servoScale.counts_quantity_counts]
  have hset : setAngle registers .successful channel a = (.successful,
      Memory.write registers (ledBase channel) (pwmData 0 (UInt16.ofNat (angleCounts a)))) :=
    setPwm_accepted hchannel 0 _
  refine ⟨_, countsAngle (angleCounts a), hset, ?_, ?_, toNat_angleCounts a, ?_, ?_, ?_, hback, ?_⟩
  · exact Nat.le_sub_one_of_lt hlt
  · have hpwm := @getPwm_setAngle registers channel hchannel a
    rw [hset] at hpwm
    exact hpwm
  · intro a' ha
    rw [angleCounts_eq, angleCounts_eq]
    exact servoScale.counts_mono ha
  · have hget := @getAngle_setAngle registers channel hchannel a
    rw [hset] at hget
    exact hget
  · have herror := servoScale.abs_quantity_counts_sub_le a
    rw [← angleCounts_eq, ← countsAngle_eq hlt] at herror
    apply herror.trans
    norm_num [servoScale]
  · rw [setAngle, hback, setPwm_accepted hchannel, Memory.write_write_self]

/-- An angle of 200 degrees is clamped, and what is read back of it is written again. -/
theorem angle_codec_above :
    ∃ registers' b,
      setAngle (fun _ => 0) .successful 3 200 = (.successful, registers') ∧
      getAngle registers' .successful 3 true = (.successful, some b) ∧
      |b - 180| ≤ 22 / 100 ∧ setAngle registers' .successful 3 b = (.successful, registers') := by
  obtain ⟨registers', b, hset, -, -, -, -, hget, herror, -, hagain⟩ :=
    angle_codec (fun _ => 0) 3 (by decide) 200
  have hclamp : clampf 200 servoMinAngle servoMaxAngle = 180 := by
    rw [clampf, servoMinAngle, servoMaxAngle]
    norm_num
  rw [hclamp] at herror
  exact ⟨registers', b, hset, hget, herror, hagain⟩

end SnipeIt.Ddl.Pca9685
