import Mathlib.Data.Nat.Bitwise
import Mathlib.Tactic.NormNum
import SnipeIt.Ddl.Am2302
import SnipeIt.Ddl.Frames
import SnipeIt.Support.Bits
import SnipeIt.Support.Checksum

/-! # Frames of the AM2302

What the sensor sends, as the driver's polls see it, and the frame and the values
that the driver makes of it.
-/

namespace SnipeIt.Ddl.Am2302
open Support

/-! ## Frames and bits -/

namespace TempHumFrame

/-- The bits of a frame in the order in which they are sent. -/
def bits (frame : TempHumFrame) : List Bool :=
  frame.bytes.flatMap fun byte => Bits.digits 8 byte.toNat

def ofBits (bits : List Bool) : TempHumFrame where
  humidityHi := Bits.byte (Bits.chunk bits 0)
  humidityLo := Bits.byte (Bits.chunk bits 1)
  temperatureHi := Bits.byte (Bits.chunk bits 2)
  temperatureLo := Bits.byte (Bits.chunk bits 3)
  parity := Bits.byte (Bits.chunk bits 4)

theorem length_bits (frame : TempHumFrame) : frame.bits.length = bitCount := by
  simp [bits, bytes, bitCount]

theorem ofBits_bits (frame : TempHumFrame) : ofBits frame.bits = frame := by
  have hbyte (j : ℕ) (hj : j < frame.bytes.length) :
      Bits.byte (Bits.chunk frame.bits j) = frame.bytes[j] :=
    Bits.byte_chunk_flatMap frame.bytes hj
  rw [ofBits, hbyte 0 (by simp [bytes]), hbyte 1 (by simp [bytes]), hbyte 2 (by simp [bytes]),
    hbyte 3 (by simp [bytes]), hbyte 4 (by simp [bytes])]
  rfl

theorem ofBits_concat (bits : List Bool) (b : Bool) :
    ofBits (bits ++ [b]) = (ofBits bits).modifyByte
      (fun byte => (byte <<< 1) ||| (if b then 1 else 0)) (bits.length / 8) := by
  simp only [ofBits, Bits.byte_chunk_concat]
  rcases bits.length / 8 with _ | _ | _ | _ | _ | k <;> simp [modifyByte]

/-- The bytes that add up to zero in an accepted frame. -/
def summands (frame : TempHumFrame) : List UInt8 :=
  [frame.humidityHi, frame.humidityLo, frame.temperatureHi, frame.temperatureLo, -frame.parity]

theorem parityCheck_iff (frame : TempHumFrame) :
    parityCheck frame = true ↔ frame.summands.sum = 0 := by
  simp only [parityCheck, decide_eq_true_eq, summands, List.sum_cons, List.sum_nil, add_zero]
  rw [← add_assoc, ← add_assoc, ← add_assoc, ← sub_eq_add_neg, sub_eq_zero]

theorem summands_agree {bits bits' : List Bool} {k : ℕ}
    (h : ∀ j, j ≠ k → Bits.chunk bits j = Bits.chunk bits' j) (j : ℕ) (hj : j ≠ k) :
    (ofBits bits).summands[j]? = (ofBits bits').summands[j]? := by
  rcases j with _ | _ | _ | _ | _ | j <;> simp [summands, ofBits, h _ hj]

theorem byte_of_summands {bits bits' : List Bool}
    (h : (ofBits bits).summands = (ofBits bits').summands) {k : ℕ} (hk : k < 5) :
    Bits.byte (Bits.chunk bits k) = Bits.byte (Bits.chunk bits' k) := by
  simp only [summands, ofBits, List.cons.injEq, neg_inj, and_true] at h
  obtain ⟨h0, h1, h2, h3, h4⟩ := h
  rcases k with _ | _ | _ | _ | _ | k
  · exact h0
  · exact h1
  · exact h2
  · exact h3
  · exact h4
  · omega

/-- No accepted frame is one bit away from another one. -/
theorem flip_rejected {frame : TempHumFrame} (h : parityCheck frame = true) {i : ℕ}
    (hi : i < bitCount) : parityCheck (ofBits (frame.bits.modify i not)) = false := by
  have hlength : frame.bits.length = 40 := frame.length_bits
  have hi : i < 40 := hi
  rw [← frame.ofBits_bits, parityCheck_iff] at h
  by_contra hother
  rw [Bool.not_eq_false, parityCheck_iff] at hother
  -- only one of the summands may be another one, so that none is
  have hagree : ∀ j, j ≠ i / 8 →
      (ofBits (frame.bits.modify i not)).summands[j]? = (ofBits frame.bits).summands[j]? :=
    summands_agree fun j hj => Bits.chunk_modify_of_ne (Ne.symm hj)
  have hsum : (ofBits (frame.bits.modify i not)).summands.sum = (ofBits frame.bits).summands.sum :=
    hother.trans h.symm
  have hsame := Checksum.eq_of_sum_eq (by simp only [summands, List.length_cons]) hagree hsum
  have hbyte := byte_of_summands hsame (k := i / 8) (by omega)
  have hchunk : Bits.chunk (frame.bits.modify i not) (i / 8) ≠ Bits.chunk frame.bits (i / 8) :=
    Bits.chunk_modify_ne (by omega)
  apply hchunk
  apply Bits.eq_of_byte_eq _ _ hbyte
  · exact Bits.length_chunk (by rw [List.length_modify]; omega)
  · exact Bits.length_chunk (by omega)

end TempHumFrame

/-! ## The line -/

namespace Hardware

variable (w : Hardware)

/-- Of polls that begin at moment `n`, the first one to see a level is at time `t`, those before it
are not too late, and the next moment is `m`. -/
def Seen (targetLevel : ℤ) (timeoutUs n m t : ℕ) : Prop :=
  ∃ k, (∀ j < k, ∃ level, w.level (n + 1 + 2 * j) = some level ∧ level ≠ targetLevel ∧
      w.clock (n + 2 + 2 * j) < w.clock n + timeoutUs) ∧
    w.level (n + 1 + 2 * k) = some targetLevel ∧ w.clock (n + 2 + 2 * k) = t ∧ n + 3 + 2 * k = m

/-- From moment `n` to moment `m` the sensor sends a bit: a high pulse whose measured width is over
the threshold for a one. -/
def Pulse (n : ℕ) (bit : Bool) (m : ℕ) : Prop :=
  ∃ k rise fall, w.Seen 1 bitTimeoutUs n k rise ∧ w.Seen 0 bitTimeoutUs k m fall ∧
    (bitThresholdUs < fall - rise ↔ bit = true)

/-- The sensor sends bits, the one with index `i` from moment `start i` on. -/
def Sends (bits : List Bool) (start : ℕ → ℕ) : Prop :=
  ∀ i (hi : i < bits.length), w.Pulse (start i) bits[i] (start (i + 1))

end Hardware

variable {w : Hardware} {s : State}

theorem waitLoop_seen {targetLevel : ℤ} {deadline n k : ℕ}
    (hbefore : ∀ j < k, ∃ level, w.level (n + 2 * j) = some level ∧ level ≠ targetLevel ∧
      w.clock (n + 1 + 2 * j) < deadline)
    (hseen : w.level (n + 2 * k) = some targetLevel) :
    waitLoop w targetLevel deadline n = (.ok (w.clock (n + 1 + 2 * k)), n + 2 + 2 * k) := by
  induction k generalizing n with
  | zero =>
    rw [Nat.mul_zero, Nat.add_zero] at hseen
    rw [waitLoop, hseen]
    dsimp only
    rw [if_pos rfl]
  | succ k ih =>
    obtain ⟨level, hlevel, hne, hearly⟩ := hbefore 0 (Nat.succ_pos k)
    rw [Nat.mul_zero, Nat.add_zero] at hlevel hearly
    rw [waitLoop, hlevel]
    dsimp only
    rw [if_neg hne, dif_neg (Nat.not_le.mpr hearly), ih]
    · have hnext : n + 2 + 1 + 2 * k = n + 1 + 2 * (k + 1) := by omega
      have hend : n + 2 + 2 + 2 * k = n + 2 + 2 * (k + 1) := by omega
      rw [hnext, hend]
    · intro j hj
      have hpoll : n + 2 + 2 * j = n + 2 * (j + 1) := by omega
      have htime : n + 2 + 1 + 2 * j = n + 1 + 2 * (j + 1) := by omega
      rw [hpoll, htime]
      exact hbefore (j + 1) (Nat.succ_lt_succ hj)
    · have hpoll : n + 2 + 2 * k = n + 2 * (k + 1) := by omega
      rw [hpoll]
      exact hseen

theorem waitForLevel_seen {targetLevel : ℤ} {timeoutUs m t : ℕ}
    (h : w.Seen targetLevel timeoutUs s.moment m t) :
    waitForLevel w targetLevel timeoutUs s = (.ok t, { s with moment := m }) := by
  obtain ⟨k, hbefore, hseen, rfl, rfl⟩ := h
  have hloop : waitLoop w targetLevel (w.clock s.moment + timeoutUs) (s.moment + 1) =
      (.ok (w.clock (s.moment + 1 + 1 + 2 * k)), s.moment + 1 + 2 + 2 * k) :=
    waitLoop_seen hbefore hseen
  have htime : getTimeUs w s = (.ok (w.clock s.moment), { s with moment := s.moment + 1 }) := rfl
  rw [waitForLevel, Driver.bind_ok htime, pollUntil]
  dsimp only
  rw [hloop]

theorem readBit_pulse {bit : Bool} {m : ℕ} (h : w.Pulse s.moment bit m) :
    readBit w s = (.ok (if bit then 1 else 0), { s with moment := m }) := by
  obtain ⟨k, rise, fall, hrise, hfall, hwidth⟩ := h
  rw [readBit, Driver.bind_ok (waitForLevel_seen hrise),
    Driver.bind_ok (waitForLevel_seen (s := { s with moment := k }) hfall)]
  simp only [hwidth]
  rfl

/-- After some rounds of the loop, `resp_frame` is the frame of the bits sent so far. -/
theorem readBits_sends {bits : List Bool} {start : ℕ → ℕ} (hsends : w.Sends bits start)
    (hstart : s.moment = start 0) (hframe : s.respFrame = .ofBits []) {n : ℕ}
    (hn : n ≤ bits.length) :
    readBits w n s =
      (.ok (), { s with moment := start n, respFrame := .ofBits (bits.take n) }) := by
  induction n with
  | zero =>
    rw [List.take_zero, ← hframe, ← hstart]
    rfl
  | succ n ih =>
    have hbit := readBit_pulse
      (s := { s with moment := start n, respFrame := .ofBits (bits.take n) }) (hsends n hn)
    have htake : (bits.take n).length = n := List.length_take_of_le (Nat.le_of_succ_le hn)
    rw [readBits, Driver.bind_ok (ih (Nat.le_of_succ_le hn)), Driver.bind_ok hbit,
      List.take_succ_eq_append_getElem hn, TempHumFrame.ofBits_concat, htake]
    rfl

theorem readFrame_bits {bits : List Bool} {start : ℕ → ℕ} (hsends : w.Sends bits start)
    (hlength : bits.length = bitCount) (hstart : s.moment = start 0) :
    readFrame w s = (.ok (), { s with moment := start bitCount, respFrame := .ofBits bits }) := by
  have hbits := readBits_sends (s := { s with respFrame := ⟨0, 0, 0, 0, 0⟩ }) hsends hstart rfl
    hlength.ge
  rw [← hlength, List.take_length, hlength] at hbits
  rw [readFrame, Driver.modify_bind, hbits]

theorem readFrame_sends {frame : TempHumFrame} {start : ℕ → ℕ}
    (hsends : w.Sends frame.bits start) (hstart : s.moment = start 0) :
    readFrame w s = (.ok (), { s with moment := start bitCount, respFrame := frame }) := by
  rw [readFrame_bits hsends frame.length_bits hstart, frame.ofBits_bits]

/-! ## Transactions that succeed -/

theorem waitLoop_ok {targetLevel : ℤ} {deadline n m t : ℕ}
    (h : waitLoop w targetLevel deadline n = (.ok t, m)) :
    ∃ k, (∀ j < k, ∃ level, w.level (n + 2 * j) = some level ∧ level ≠ targetLevel ∧
        w.clock (n + 1 + 2 * j) < deadline) ∧
      w.level (n + 2 * k) = some targetLevel ∧ w.clock (n + 1 + 2 * k) = t ∧ n + 2 + 2 * k = m := by
  fun_induction waitLoop w targetLevel deadline n with
  | case1 => cases h
  | case2 n hlevel =>
    cases h
    refine ⟨0, ?_, hlevel, rfl, rfl⟩
    intro j hj
    cases hj
  | case3 => cases h
  | case4 n level hlevel hne hearly ih =>
    obtain ⟨k, hbefore, hseen, htime, hend⟩ := ih h
    refine ⟨k + 1, ?_, ?_, ?_, by omega⟩
    · intro j hj
      cases j with
      | zero => exact ⟨level, hlevel, hne, Nat.lt_of_not_le hearly⟩
      | succ j =>
        have hpoll : n + 2 * (j + 1) = n + 2 + 2 * j := by omega
        have htime : n + 1 + 2 * (j + 1) = n + 2 + 1 + 2 * j := by omega
        rw [hpoll, htime]
        exact hbefore j (Nat.lt_of_succ_lt_succ hj)
    · have hpoll : n + 2 * (k + 1) = n + 2 + 2 * k := by omega
      rw [hpoll]
      exact hseen
    · have hpoll : n + 1 + 2 * (k + 1) = n + 2 + 1 + 2 * k := by omega
      rw [hpoll]
      exact htime

variable {s' : State}

theorem waitForLevel_ok {targetLevel : ℤ} {timeoutUs t : ℕ}
    (h : waitForLevel w targetLevel timeoutUs s = (.ok t, s')) :
    ∃ m, w.Seen targetLevel timeoutUs s.moment m t ∧ s' = { s with moment := m } := by
  have htime : getTimeUs w s = (.ok (w.clock s.moment), { s with moment := s.moment + 1 }) := rfl
  rw [waitForLevel, Driver.bind_ok htime, pollUntil] at h
  dsimp only at h
  rcases hloop : waitLoop w targetLevel (w.clock s.moment + timeoutUs) (s.moment + 1) with
    ⟨result, m⟩
  rw [hloop] at h
  cases h
  obtain ⟨k, hbefore, hseen, ht, hm⟩ := waitLoop_ok hloop
  exact ⟨m, ⟨k, hbefore, hseen, ht, by omega⟩, rfl⟩

theorem readBit_ok {bit : UInt8} (h : readBit w s = (.ok bit, s')) :
    ∃ b m, w.Pulse s.moment b m ∧ s' = { s with moment := m } ∧ bit = if b then 1 else 0 := by
  obtain ⟨rise, s1, hrise, h⟩ := Driver.bind_eq_ok h
  obtain ⟨fall, s2, hfall, h⟩ := Driver.bind_eq_ok h
  cases h
  obtain ⟨k, hseen, rfl⟩ := waitForLevel_ok hrise
  obtain ⟨m, hseen', rfl⟩ := waitForLevel_ok hfall
  refine ⟨decide (bitThresholdUs < fall - rise), m, ⟨k, rise, fall, hseen, hseen', ?_⟩, rfl, ?_⟩
  · rw [decide_eq_true_eq]
  · simp only [decide_eq_true_eq]

theorem readBits_ok {n : ℕ} (hframe : s.respFrame = .ofBits [])
    (h : readBits w n s = (.ok (), s')) :
    ∃ bits start, bits.length = n ∧ start 0 = s.moment ∧ w.Sends bits start ∧
      s' = { s with moment := start n, respFrame := .ofBits bits } := by
  induction n generalizing s' with
  | zero =>
    cases h
    refine ⟨[], fun _ => s.moment, rfl, rfl, ?_, ?_⟩
    · intro i hi
      cases hi
    · rw [← hframe]
  | succ n ih =>
    obtain ⟨⟨⟩, s1, hbits, h⟩ := Driver.bind_eq_ok h
    obtain ⟨bit, s2, hbit, h⟩ := Driver.bind_eq_ok h
    cases h
    obtain ⟨bits, start, hlength, hstart, hsends, rfl⟩ := ih hbits
    obtain ⟨b, m, hpulse, rfl, rfl⟩ := readBit_ok hbit
    refine ⟨bits ++ [b], fun i => if i ≤ n then start i else m, by simp [hlength], ?_, ?_, ?_⟩
    · exact (if_pos (Nat.zero_le n)).trans hstart
    · intro i hi
      rw [List.length_append, List.length_singleton] at hi
      dsimp only
      rcases Nat.lt_or_ge i n with hlt | hge
      · rw [if_pos hlt.le, if_pos (Nat.succ_le_of_lt hlt), List.getElem_append_left (by omega)]
        exact hsends i (by omega)
      · have hi : i = bits.length := by omega
        subst hi
        rw [if_pos (by omega), if_neg (by omega), List.getElem_concat_length rfl, hlength]
        exact hpulse
    · have hend : (if n + 1 ≤ n then start (n + 1) else m) = m := if_neg (by omega)
      dsimp only
      rw [hend, TempHumFrame.ofBits_concat, hlength]

theorem respFrame_eq (s : State) : respFrame s = (.ok s.respFrame, s) := rfl

theorem setDirection_eq_ok {direction : GpioDirection} :
    setDirection w direction s = (.ok (), s') ↔
      w.direction direction s.moment = .successful ∧ { s with moment := s.moment + 1 } = s' := by
  unfold setDirection
  dsimp only
  split_ifs with hok
  · simp [hok]
  · simp [hok]

theorem sendReadRequest_eq_ok :
    sendReadRequest w s = (.ok (), s') ↔
      w.direction .output s.moment = .successful ∧
        w.direction .input (s.moment + 2) = .successful ∧
        { s with moment := s.moment + 3 } = s' := by
  constructor
  · intro h
    obtain ⟨⟨⟩, s1, houtput, h⟩ := Driver.bind_eq_ok h
    obtain ⟨⟨⟩, s2, hdelay, hinput⟩ := Driver.bind_eq_ok h
    obtain ⟨hsuccess, rfl⟩ := setDirection_eq_ok.mp houtput
    cases hdelay
    exact ⟨hsuccess, setDirection_eq_ok.mp hinput⟩
  · rintro ⟨houtput, hinput, rfl⟩
    rw [sendReadRequest, Driver.bind_ok (setDirection_eq_ok.mpr ⟨houtput, rfl⟩), delayMs,
      Driver.modify_bind]
    exact setDirection_eq_ok.mpr ⟨hinput, rfl⟩

/-- From moment `n` on, the sensor answers to the start signal and sends bits that pass the parity
check. -/
def Hardware.Responds (w : Hardware) (n : ℕ) : Prop :=
  w.direction .output n = .successful ∧ w.direction .input (n + 2) = .successful ∧
    ∃ low high t0 t1 t2 bits start, w.Seen 0 responseTimeoutUs (n + 3) low t0 ∧
      w.Seen 1 responsePhaseTimeoutUs low high t1 ∧
      w.Seen 0 responsePhaseTimeoutUs high (start 0) t2 ∧
      bits.length = bitCount ∧ w.Sends bits start ∧ parityCheck (.ofBits bits) = true

theorem read_sends {low high t0 t1 t2 : ℕ} {bits : List Bool} {start : ℕ → ℕ}
    (houtput : w.direction .output s.moment = .successful)
    (hinput : w.direction .input (s.moment + 2) = .successful)
    (hlow : w.Seen 0 responseTimeoutUs (s.moment + 3) low t0)
    (hhigh : w.Seen 1 responsePhaseTimeoutUs low high t1)
    (hlow' : w.Seen 0 responsePhaseTimeoutUs high (start 0) t2) (hlength : bits.length = bitCount)
    (hsends : w.Sends bits start) (hparity : parityCheck (.ofBits bits) = true) :
    (read w s).1 = .ok () ∧ (read w s).2.moment = start bitCount := by
  have hresponse : waitForResponse w { s with moment := s.moment + 3 } =
      (.ok (), { s with moment := start 0 }) := by
    rw [waitForResponse, Driver.bind_ok (waitForLevel_seen hlow),
      Driver.bind_ok (waitForLevel_seen (s := { s with moment := low }) hhigh),
      Driver.bind_ok (waitForLevel_seen (s := { s with moment := high }) hlow')]
    rfl
  rw [read, Driver.bind_ok (sendReadRequest_eq_ok.mpr ⟨houtput, hinput, rfl⟩),
    Driver.bind_ok hresponse, Driver.bind_ok (readFrame_bits hsends hlength rfl),
    Driver.bind_ok (respFrame_eq _), hparity, if_neg (by decide)]
  exact ⟨rfl, rfl⟩

/-- A call of `am2302_read` succeeds exactly if the sensor responds. -/
theorem read_ok_iff (w : Hardware) (s : State) :
    (read w s).1 = .ok () ↔ w.Responds s.moment := by
  constructor
  · intro hok
    have h : read w s = (.ok (), (read w s).2) := Prod.ext hok rfl
    obtain ⟨⟨⟩, s1, hrequest, h⟩ := Driver.bind_eq_ok h
    obtain ⟨⟨⟩, s5, hresponse, h⟩ := Driver.bind_eq_ok h
    obtain ⟨⟨⟩, s6, hframe, h⟩ := Driver.bind_eq_ok h
    obtain ⟨houtput, hinput, rfl⟩ := sendReadRequest_eq_ok.mp hrequest
    obtain ⟨t0, s2, hlow, hresponse⟩ := Driver.bind_eq_ok hresponse
    obtain ⟨t1, s3, hhigh, hresponse⟩ := Driver.bind_eq_ok hresponse
    obtain ⟨t2, s4, hlow', hresponse⟩ := Driver.bind_eq_ok hresponse
    cases hresponse
    obtain ⟨low, hseen, rfl⟩ := waitForLevel_ok hlow
    obtain ⟨high, hseen', rfl⟩ := waitForLevel_ok hhigh
    obtain ⟨first, hfirst, rfl⟩ := waitForLevel_ok hlow'
    rw [readFrame, Driver.modify_bind] at hframe
    obtain ⟨bits, start, hlength, hstart, hsends, rfl⟩ := readBits_ok rfl hframe
    refine ⟨houtput, hinput, low, high, t0, t1, t2, bits, start, hseen, hseen', ?_, hlength,
      hsends, ?_⟩
    · rw [hstart]
      exact hfirst
    · rw [Driver.bind_ok (respFrame_eq _)] at h
      split_ifs at h with hparity
      · cases h
      · exact Bool.not_eq_false _ ▸ hparity
  · rintro ⟨houtput, hinput, low, high, t0, t1, t2, bits, start, hlow, hhigh, hlow', hlength,
      hsends, hparity⟩
    exact (read_sends houtput hinput hlow hhigh hlow' hlength hsends hparity).1

/-! ## The values -/

/-- The frame of the sensor for a humidity and the sign and magnitude of a temperature, in
tenths. -/
def encode (humidity : UInt16) (negative : Bool) (magnitude : ℕ) : TempHumFrame :=
  let temperature := (if negative then 2 ^ 15 else 0) + magnitude
  let humidityHi := UInt8.ofNat (humidity.toNat / 256)
  let humidityLo := UInt8.ofNat humidity.toNat
  let temperatureHi := UInt8.ofNat (temperature / 256)
  let temperatureLo := UInt8.ofNat temperature
  ⟨humidityHi, humidityLo, temperatureHi, temperatureLo,
    humidityHi + humidityLo + temperatureHi + temperatureLo⟩

theorem parityCheck_encode (humidity : UInt16) (negative : Bool) (magnitude : ℕ) :
    parityCheck (encode humidity negative magnitude) = true := decide_eq_true rfl

theorem toNat_word {v : ℕ} (hv : v < 2 ^ 16) :
    (((UInt8.ofNat (v / 256)).toUInt16 <<< 8 ||| (UInt8.ofNat v).toUInt16 : UInt16)).toNat = v := by
  have hword : ((UInt8.ofNat (v / 256)).toUInt16 <<< 8 ||| (UInt8.ofNat v).toUInt16 : UInt16) =
      littleEndian16 (UInt8.ofNat v) (UInt8.ofNat (v / 256)) := UInt16.or_comm _ _
  rw [hword, littleEndian16_toNat, leValue, leValue, leValue, UInt8.toNat_ofNat',
    UInt8.toNat_ofNat']
  omega

theorem humidityOf_encode (humidity : UInt16) (negative : Bool) (magnitude : ℕ) :
    humidityOf (encode humidity negative magnitude) = humidity.toNat / 10 := by
  rw [humidityOf, encode]
  dsimp only
  rw [toNat_word humidity.toNat_lt]

theorem magnitude_of_word {raw : UInt16} {sign magnitude : ℕ} (hmagnitude : magnitude < 2 ^ 15)
    (hraw : raw.toNat = 2 ^ 15 * sign + magnitude) : (raw &&& 0x7FFF).toNat = magnitude := by
  have hmask : raw.toNat &&& 32767 = raw.toNat % 2 ^ 15 :=
    Nat.and_two_pow_sub_one_eq_mod raw.toNat 15
  have hand : (raw &&& 0x7FFF).toNat = raw.toNat &&& 32767 := UInt16.toNat_and raw 0x7FFF
  rw [hand, hmask, hraw, Nat.mul_add_mod, Nat.mod_eq_of_lt hmagnitude]

theorem sign_of_word {raw : UInt16} {sign : Bool} {magnitude : ℕ} (hmagnitude : magnitude < 2 ^ 15)
    (hraw : raw.toNat = 2 ^ 15 * sign.toNat + magnitude) : raw &&& 0x8000 ≠ 0 ↔ sign = true := by
  have hbit : raw.toNat.testBit 15 = sign := by
    rw [Nat.testBit_eq_decide_div_mod_eq, hraw, Nat.mul_add_div (by omega),
      Nat.div_eq_of_lt hmagnitude]
    cases sign <;> rfl
  have hmask : raw.toNat &&& 32768 = sign.toNat * 2 ^ 15 := by
    rw [← hbit]
    exact Nat.and_two_pow raw.toNat 15
  have hand : (raw &&& 0x8000).toNat = raw.toNat &&& 32768 := UInt16.toNat_and raw 0x8000
  rw [ne_eq, ← UInt16.toNat_inj, hand, hmask]
  cases sign <;> decide

theorem temperatureOf_encode (humidity : UInt16) (negative : Bool) {magnitude : ℕ}
    (hmagnitude : magnitude < 2 ^ 15) :
    temperatureOf (encode humidity negative magnitude) =
      if negative then -(magnitude / 10 : ℚ) else magnitude / 10 := by
  have hsign : (if negative then 2 ^ 15 else 0) = 2 ^ 15 * negative.toNat := by
    cases negative <;> rfl
  have hlt : 2 ^ 15 * negative.toNat + magnitude < 2 ^ 16 := by
    have hbool := Bool.toNat_lt negative
    omega
  have hraw := toNat_word hlt
  rw [temperatureOf, encode]
  dsimp only
  rw [hsign, magnitude_of_word hmagnitude hraw]
  simp only [sign_of_word hmagnitude hraw]

/-- What the sensor sends is received and accepted, and decoded into the values that it stands
for. A frame with any one bit changed is rejected. -/
theorem frame_decoded (w : Hardware) (s : State) (humidity : UInt16) (negative : Bool)
    (magnitude : ℕ) (hmagnitude : magnitude < 2 ^ 15) (start : ℕ → ℕ)
    (hsends : w.Sends (encode humidity negative magnitude).bits start)
    (hstart : s.moment = start 0) :
    ∃ s', readFrame w s = (.ok (), s') ∧ parityCheck s'.respFrame = true ∧
      (decodeFrame s'.respFrame s').2.humidity = (humidity.toNat : ℚ) / 10 ∧
      (decodeFrame s'.respFrame s').2.temperature =
        (if negative then -(magnitude / 10 : ℚ) else magnitude / 10) ∧
      ∀ i < bitCount,
        parityCheck (.ofBits ((encode humidity negative magnitude).bits.modify i not)) = false := by
  have hparity := parityCheck_encode humidity negative magnitude
  refine ⟨_, readFrame_sends hsends hstart, hparity, humidityOf_encode _ _ _,
    temperatureOf_encode _ _ hmagnitude, ?_⟩
  intro i hi
  exact TempHumFrame.flip_rejected hparity hi

/-! ## A sensor -/

def pulseUs (bit : Bool) : ℕ := if bit then 70 else 26

theorem pulseUs_lt (bit : Bool) : pulseUs bit < 200 := by
  cases bit <;> decide

def sendingClock (bits : List Bool) (n : ℕ) : ℕ :=
  200 * (n / 6) + if n % 6 < 3 then 0 else pulseUs (bits.getD (n / 6) false)

theorem sendingClock_mono (bits : List Bool) : Monotone (sendingClock bits) := by
  apply monotone_nat_of_le_succ
  intro n
  have hpulse := pulseUs_lt (bits.getD (n / 6) false)
  by_cases hlast : n % 6 = 5
  · have hdiv : (n + 1) / 6 = n / 6 + 1 := by omega
    unfold sendingClock
    rw [hdiv, if_neg (by omega), if_pos (by omega)]
    omega
  · have hdiv : (n + 1) / 6 = n / 6 := by omega
    unfold sendingClock
    rw [hdiv]
    split_ifs <;> omega

/-- A sensor that is there three seconds after the first two calls. Every poll finds the level that
it looks for, those for the response from moment 6 on and those for the bits from moment 15 on. -/
def sensor (bits : List Bool) : Hardware where
  clock n := if n < 2 then 0 else 3000000 + sendingClock bits (n - 15)
  level n := some (if n = 10 ∨ 15 ≤ n ∧ (n - 15) % 6 < 3 then 1 else 0)
  direction _ _ := .successful
  mono := by
    intro n m hle
    dsimp only
    split_ifs with hn hm
    · exact le_rfl
    · exact Nat.zero_le _
    · omega
    · exact Nat.add_le_add_left (sendingClock_mono bits (Nat.sub_le_sub_right hle 15)) _
  unbounded t := ⟨15 + 6 * t, by
    rw [if_neg (by omega), sendingClock]
    omega⟩

theorem sensor_clock (bits : List Bool) {i r : ℕ} (hr : r < 6) :
    (sensor bits).clock (15 + 6 * i + r) =
      3000000 + 200 * i + if r < 3 then 0 else pulseUs (bits.getD i false) := by
  have hlate : ¬ 15 + 6 * i + r < 2 := by omega
  have hoffset : 15 + 6 * i + r - 15 = 6 * i + r := by omega
  have hdiv : (6 * i + r) / 6 = i := by omega
  have hmod : (6 * i + r) % 6 = r := by omega
  dsimp only [sensor]
  rw [if_neg hlate, hoffset, sendingClock, hdiv, hmod, Nat.add_assoc]

theorem sensor_level (bits : List Bool) {i r : ℕ} (hr : r < 6) :
    (sensor bits).level (15 + 6 * i + r) = some (if r < 3 then 1 else 0) := by
  have hoffset : (15 + 6 * i + r = 10 ∨ 15 ≤ 15 + 6 * i + r ∧ (15 + 6 * i + r - 15) % 6 < 3) ↔
      r < 3 := by omega
  dsimp only [sensor]
  simp only [hoffset]

theorem seen_at_once {targetLevel : ℤ} {timeoutUs n m t : ℕ} {w : Hardware}
    (hlevel : w.level (n + 1) = some targetLevel) (htime : w.clock (n + 2) = t) (hend : n + 3 = m) :
    w.Seen targetLevel timeoutUs n m t :=
  ⟨0, fun _ hj => absurd hj (Nat.not_lt_zero _), hlevel, htime, hend⟩

/-- From moment `n` on the hardware is like the sensor from moment 3 on, at a later time. -/
structure Hardware.Follows (w : Hardware) (bits : List Bool) (n later : ℕ) : Prop where
  direction : ∀ d m, w.direction d m = .successful
  level : ∀ j < 252, w.level (n + j) = (sensor bits).level (3 + j)
  clock : ∀ j < 252, w.clock (n + j) = later + (sensor bits).clock (3 + j)

theorem sensor_follows (bits : List Bool) : (sensor bits).Follows bits 3 0 :=
  ⟨fun _ _ => rfl, fun _ _ => rfl, fun _ _ => (Nat.zero_add _).symm⟩

variable {n later : ℕ} {bits : List Bool}

theorem Hardware.Follows.sends (h : w.Follows bits n later) (hlength : bits.length = bitCount) :
    w.Sends bits (n + 12 + 6 * ·) := by
  intro i hi
  have hcount : bitCount = 40 := rfl
  have hbit : bits.getD i false = bits[i] := by
    rw [List.getD_eq_getElem?_getD, List.getElem?_eq_getElem hi, Option.getD_some]
  have hlevel {r : ℕ} (hr : r < 6) :
      w.level (n + 12 + 6 * i + r) = some (if r < 3 then 1 else 0) := by
    rw [← sensor_level bits (i := i) hr, show n + 12 + 6 * i + r = n + (12 + 6 * i + r) by omega,
      h.level _ (by omega), show 3 + (12 + 6 * i + r) = 15 + 6 * i + r by omega]
  have hclock {r : ℕ} (hr : r < 6) : w.clock (n + 12 + 6 * i + r) =
      later + (3000000 + 200 * i + if r < 3 then 0 else pulseUs bits[i]) := by
    rw [← hbit, ← sensor_clock bits (i := i) hr,
      show n + 12 + 6 * i + r = n + (12 + 6 * i + r) by omega, h.clock _ (by omega),
      show 3 + (12 + 6 * i + r) = 15 + 6 * i + r by omega]
  refine ⟨n + 12 + 6 * i + 3, later + (3000000 + 200 * i),
    later + (3000000 + 200 * i + pulseUs bits[i]), ?_, ?_, ?_⟩
  · exact seen_at_once (hlevel (r := 1) (by omega)) (hclock (r := 2) (by omega)) rfl
  · exact seen_at_once (hlevel (r := 4) (by omega)) (hclock (r := 5) (by omega))
      (by dsimp only; omega)
  · rw [Nat.add_sub_add_left, Nat.add_sub_cancel_left]
    cases bits[i] <;> decide

theorem Hardware.Follows.read (h : w.Follows bits s.moment later) (hlength : bits.length = bitCount)
    (hparity : parityCheck (.ofBits bits) = true) :
    (read w s).1 = .ok () ∧ (read w s).2.moment = s.moment + 252 :=
  @read_sends _ _ _ _ _ _ _ _ (s.moment + 12 + 6 * ·) (h.direction _ _) (h.direction _ _)
    (seen_at_once (h.level 4 (by omega)) rfl rfl) (seen_at_once (h.level 7 (by omega)) rfl rfl)
    (seen_at_once (h.level 10 (by omega)) rfl rfl) hlength (h.sends hlength) hparity

/-- 65.2 percent and -10.1 degrees. -/
theorem frame_decoded_below_zero :
    ∃ s', readFrame (sensor (encode 652 true 101).bits) ⟨15, ⟨0, 0, 0, 0, 0⟩, 0, 0⟩ =
        (.ok (), s') ∧
      parityCheck s'.respFrame = true ∧
      (decodeFrame s'.respFrame s').2.humidity = 652 / 10 ∧
      (decodeFrame s'.respFrame s').2.temperature = -(101 / 10) := by
  obtain ⟨s', hread, hparity, hhumidity, htemperature, -⟩ :=
    frame_decoded (sensor (encode 652 true 101).bits) ⟨15, ⟨0, 0, 0, 0, 0⟩, 0, 0⟩ 652 true 101
      (by omega) _ ((sensor_follows _).sends (TempHumFrame.length_bits _)) rfl
  exact ⟨s', hread, hparity, hhumidity, htemperature⟩

end SnipeIt.Ddl.Am2302
