import SnipeIt.Ddl.FrameCodecs
import SnipeIt.Ddl.GpsConfig
import SnipeIt.Support.Memory

/-! # UBX messages

The wire format that the GPS speaks, the frame that `config_send_current_step`
builds for it byte by byte in its transmit buffer, and the check of received
frames.
-/

namespace SnipeIt.Ddl
open Support

/-! ## The wire format -/

structure UbxMessage where
  msgClass : UInt8
  msgId : UInt8
  payload : List UInt8
  deriving DecidableEq

def ubxChecked (frame : List UInt8) : List UInt8 := (frame.drop 2).take (frame.length - 4)

/-- The last two bytes are the checksum of everything between them and the sync bytes. -/
def ChecksumHolds (frame : List UInt8) : Prop :=
  frame.drop (frame.length - 2) =
    [(ubxChecksum (ubxChecked frame)).1, (ubxChecksum (ubxChecked frame)).2]

instance (frame : List UInt8) : Decidable (ChecksumHolds frame) :=
  inferInstanceAs (Decidable (_ = _))

namespace UbxMessage

/-- Class, identifier, length of the payload and payload. -/
def body (msg : UbxMessage) : List UInt8 :=
  [msg.msgClass, msg.msgId] ++ leBytes 2 msg.payload.length ++ msg.payload

def encode (msg : UbxMessage) : List UInt8 :=
  [sync1, sync2] ++ msg.body ++ [(ubxChecksum msg.body).1, (ubxChecksum msg.body).2]

/-- Sync bytes, class, identifier, length of the payload, payload, checksum. -/
def parse (frame : List UInt8) : Option UbxMessage :=
  match frame with
  | s1 :: s2 :: msgClass :: msgId :: lo :: hi :: rest =>
    if s1 = sync1 ∧ s2 = sync2 ∧ rest.length = leValue [lo, hi] + 2 ∧ ChecksumHolds frame then
      some ⟨msgClass, msgId, rest.take (leValue [lo, hi])⟩
    else none
  | _ => none

@[simp] theorem length_body (msg : UbxMessage) : msg.body.length = 4 + msg.payload.length := by
  simp only [body, List.length_append, length_leBytes, List.length_cons, List.length_nil]

@[simp] theorem length_encode (msg : UbxMessage) : msg.encode.length = 8 + msg.payload.length := by
  simp only [encode, List.length_append, length_body, List.length_cons, List.length_nil]
  omega

theorem ubxChecked_encode (msg : UbxMessage) : ubxChecked msg.encode = msg.body := by
  have hlength : msg.encode.length - 4 = msg.body.length := by
    rw [length_encode, length_body]
    omega
  rw [ubxChecked, hlength, encode, List.append_assoc]
  exact List.take_left

theorem checksumHolds_encode (msg : UbxMessage) : ChecksumHolds msg.encode := by
  have hlength : msg.encode.length - 2 = ([sync1, sync2] ++ msg.body).length := by
    rw [length_encode, List.length_append, length_body]
    simp only [List.length_cons, List.length_nil]
    omega
  rw [ChecksumHolds, ubxChecked_encode, hlength, encode]
  exact List.drop_left

theorem parse_encode (msg : UbxMessage) (h : msg.payload.length < 256 ^ 2) :
    parse msg.encode = some msg := by
  have hvalue : leValue (leBytes 2 msg.payload.length) = msg.payload.length := by
    rw [leValue_leBytes, Nat.mod_eq_of_lt h]
  have hrest : (msg.payload ++ [(ubxChecksum msg.body).1, (ubxChecksum msg.body).2]).length =
      leValue (leBytes 2 msg.payload.length) + 2 := by
    rw [hvalue, List.length_append]
    rfl
  have hparse : parse msg.encode =
      if sync1 = sync1 ∧ sync2 = sync2 ∧
          (msg.payload ++ [(ubxChecksum msg.body).1, (ubxChecksum msg.body).2]).length =
            leValue (leBytes 2 msg.payload.length) + 2 ∧ ChecksumHolds msg.encode then
        some ⟨msg.msgClass, msg.msgId,
          (msg.payload ++ [(ubxChecksum msg.body).1, (ubxChecksum msg.body).2]).take
            (leValue (leBytes 2 msg.payload.length))⟩
      else none := rfl
  rw [hparse, if_pos ⟨rfl, rfl, hrest, msg.checksumHolds_encode⟩, hvalue, List.take_left]

end UbxMessage

/-! ## The builder -/

/-- `sizeof(config_transmit_buf)`. -/
def configTransmitBufSize : ℕ := 24

namespace ConfigStep

/-- `step->payload[i]`. What an initialiser leaves out is zero. -/
def payloadByte (step : ConfigStep) (i : ℕ) : UInt8 := step.payload.getD i 0

def storePayload (buf : ℕ) (step : ConfigStep) (m : ℕ → UInt8) : ℕ → UInt8 :=
  (List.range step.payloadLength.toNat).foldl
    (fun m i => Memory.write m (buf + 6 + i) [step.payloadByte i]) m

/-- What `config_send_current_step` makes of the memory, where `buf` is the address of
`config_transmit_buf`, and the bytes that it hands to `hal_uart_write`. -/
def send (buf : ℕ) (step : ConfigStep) (m : ℕ → UInt8) : (ℕ → UInt8) × List UInt8 :=
  let length := step.payloadLength.toNat
  let m := Memory.write m buf [sync1]
  let m := Memory.write m (buf + 1) [sync2]
  let m := Memory.write m (buf + 2) [step.msgClass]
  let m := Memory.write m (buf + 3) [step.msgId]
  let m := Memory.write m (buf + 4) [step.payloadLength]
  let m := Memory.write m (buf + 5) [0x00]
  let m := step.storePayload buf m
  let sums := ubxChecksum (Memory.read m (buf + 2) (4 + length))
  let m := Memory.write m (buf + (6 + length)) [sums.1]
  let m := Memory.write m (buf + (6 + length) + 1) [sums.2]
  (m, Memory.read m buf (6 + length + 2))

def message (step : ConfigStep) : UbxMessage :=
  ⟨step.msgClass, step.msgId, (List.range step.payloadLength.toNat).map step.payloadByte⟩

@[simp] theorem length_message_payload (step : ConfigStep) :
    step.message.payload.length = step.payloadLength.toNat := by
  rw [message, List.length_map, List.length_range]

theorem message_payload_eq_take (step : ConfigStep)
    (h : step.payloadLength.toNat ≤ step.payload.length) :
    step.message.payload = step.payload.take step.payloadLength.toNat := by
  apply List.ext_getElem
  · rw [length_message_payload, List.length_take, Nat.min_eq_left h]
  · intro i hi _
    rw [length_message_payload] at hi
    have hinside : i < step.payload.length := by omega
    simp [message, payloadByte, hinside]

theorem message_body (step : ConfigStep) : step.message.body =
    [step.msgClass, step.msgId, step.payloadLength, 0x00] ++ step.message.payload := by
  have hlow : UInt8.ofNat step.payloadLength.toNat = step.payloadLength := UInt8.ofNat_toNat
  have hhigh : step.payloadLength.toNat / 256 = 0 := Nat.div_eq_of_lt step.payloadLength.toNat_lt
  rw [UbxMessage.body, length_message_payload, leBytes, leBytes, leBytes, hlow, hhigh]
  rfl

theorem stored_body (buf : ℕ) (step : ConfigStep) (m : ℕ → UInt8) :
    step.storePayload buf (Memory.write (Memory.write (Memory.write (Memory.write (Memory.write
      (Memory.write m buf [sync1]) (buf + 1) [sync2]) (buf + 2) [step.msgClass]) (buf + 3)
      [step.msgId]) (buf + 4) [step.payloadLength]) (buf + 5) [0x00]) =
      Memory.write m buf ([sync1, sync2] ++ step.message.body) := by
  have hsplit : [sync1, sync2] ++ step.message.body = [sync1] ++ [sync2] ++ [step.msgClass] ++
      [step.msgId] ++ [step.payloadLength] ++ [0x00] ++ step.message.payload := by
    rw [message_body]
    rfl
  rw [storePayload, Memory.foldl_write, hsplit]
  simp only [Memory.write_append]
  rfl

theorem read_body (buf : ℕ) (step : ConfigStep) (m : ℕ → UInt8) :
    Memory.read (Memory.write m buf ([sync1, sync2] ++ step.message.body)) (buf + 2)
      (4 + step.payloadLength.toNat) = step.message.body := by
  have hall := Memory.read_write_self m buf ([sync1, sync2] ++ step.message.body)
  rw [List.length_append, UbxMessage.length_body, length_message_payload, Memory.read_add] at hall
  exact (List.append_inj hall (by simp)).2

/-- The stores one after the other are one store of the frame. -/
theorem send_eq (buf : ℕ) (step : ConfigStep) (m : ℕ → UInt8) :
    step.send buf m = (Memory.write m buf step.message.encode, step.message.encode) := by
  have hlength : ([sync1, sync2] ++ step.message.body).length = 6 + step.payloadLength.toNat := by
    rw [List.length_append, UbxMessage.length_body, length_message_payload]
    simp only [List.length_cons, List.length_nil]
    omega
  have hlength' (b : UInt8) : ([sync1, sync2] ++ step.message.body ++ [b]).length =
      6 + step.payloadLength.toNat + 1 := by
    rw [List.length_append, hlength]
    rfl
  have hmemory : (step.send buf m).1 = Memory.write m buf step.message.encode := by
    simp only [send, stored_body, read_body]
    have hsplit : step.message.encode = [sync1, sync2] ++ step.message.body ++
        [(ubxChecksum step.message.body).1] ++ [(ubxChecksum step.message.body).2] := by
      simp [UbxMessage.encode]
    rw [hsplit, Memory.write_append m buf (_ ++ [_]),
      Memory.write_append m buf ([sync1, sync2] ++ step.message.body), hlength, hlength']
    rfl
  have hsent : (step.send buf m).2 =
      Memory.read (step.send buf m).1 buf step.message.encode.length := by
    rw [UbxMessage.length_encode, length_message_payload]
    have hsize : 8 + step.payloadLength.toNat = 6 + step.payloadLength.toNat + 2 := by omega
    rw [hsize]
    rfl
  apply Prod.ext
  · exact hmemory
  · rw [hsent, hmemory, Memory.read_write_self]

theorem message_encode_eq (step : ConfigStep)
    (h : step.payloadLength.toNat ≤ step.payload.length) :
    step.message.encode = configFrame step := by
  have hbody : step.message.body = step.body := by
    rw [message_body, message_payload_eq_take step h]
    rfl
  rw [UbxMessage.encode, hbody]
  rfl

end ConfigStep

/-! ## The checker -/

theorem ubxChecked_ofFn (frame : UbxNavPvtFrame) :
    ubxChecked (List.ofFn frame) = frame.checked := by
  rw [ubxChecked, List.length_ofFn]
  exact slice_ofFn frame 2 96 (by omega)

/-- What the check of received frames demands of their last two bytes. -/
theorem checksumHolds_ofFn (frame : UbxNavPvtFrame) : ChecksumHolds (List.ofFn frame) ↔
    frame 98 = frame.checked.sum ∧ frame 99 = Checksum.runningSum frame.checked := by
  have hlast : (List.ofFn frame).drop (100 - 2) = [frame 98, frame 99] := by
    have hsplit := List.ofFn_add (n := 98) (m := 2) (f := frame)
    rw [hsplit, List.drop_left' (List.length_ofFn)]
    rfl
  rw [ChecksumHolds, ubxChecked_ofFn, List.length_ofFn, UbxNavPvtFrame.ubxChecksum_eq, hlast,
    List.cons.injEq, List.cons.injEq, and_iff_left rfl]

theorem parse_ofFn (frame : UbxNavPvtFrame) : UbxMessage.parse (List.ofFn frame) =
    if frame 0 = sync1 ∧ frame 1 = sync2 ∧ 94 = leValue [frame 4, frame 5] + 2 ∧
        ChecksumHolds (List.ofFn frame) then
      some ⟨frame 2, frame 3, (List.ofFn fun i : Fin 94 => frame (i.natAdd 6)).take
        (leValue [frame 4, frame 5])⟩
    else none := by
  have hsplit : List.ofFn frame = frame 0 :: frame 1 :: frame 2 :: frame 3 :: frame 4 :: frame 5 ::
      List.ofFn fun i : Fin 94 => frame (i.natAdd 6) :=
      List.ofFn_add (n := 6) (m := 94) (f := frame)
  rw [hsplit, UbxMessage.parse, List.length_ofFn]

/-- The check of received frames is the parser of the wire format, for one kind of message and
with a new time. -/
theorem isFrameValid_iff_parse (frame : UbxNavPvtFrame) (oldITow : UInt32) :
    frame.isFrameValid oldITow = true ↔ frame.iTow ≠ oldITow ∧
      ∃ payload, payload.length = 92 ∧ UbxMessage.parse (List.ofFn frame) =
        some ⟨UbxNavPvtFrame.clsNav, UbxNavPvtFrame.idNavPvt, payload⟩ := by
  have hlength : littleEndian16 (frame 4) (frame 5) = 92 ↔ leValue [frame 4, frame 5] = 92 := by
    rw [← littleEndian16_toNat, ← UInt16.toNat_inj]
    rfl
  rw [UbxNavPvtFrame.isFrameValid_iff, hlength, ← checksumHolds_ofFn, parse_ofFn]
  constructor
  · rintro ⟨h0, h1, h2, h3, hpayload, htime, hsum⟩
    refine ⟨htime, (List.ofFn fun i : Fin 94 => frame (i.natAdd 6)).take 92, by simp, ?_⟩
    rw [if_pos ⟨h0, h1, by rw [hpayload], hsum⟩, hpayload, h2, h3]
    rfl
  · rintro ⟨htime, payload, -, hparse⟩
    split_ifs at hparse with hframe
    obtain ⟨h0, h1, hsize, hsum⟩ := hframe
    have hmessage := Option.some.inj hparse
    rw [UbxMessage.mk.injEq] at hmessage
    exact ⟨h0, h1, hmessage.1, hmessage.2.1, by omega, htime, hsum⟩

/-- The builder agrees with the checker: whatever the memory holds, a step with at most 16 bytes of
payload stores into the transmit buffer only and hands on a frame that parses back to it, with the
checksum that the check of received frames demands, which is the same parser. -/
theorem config_frame_agrees (buf : ℕ) (msgClass msgId payloadLength : UInt8)
    (payload : Fin 16 → UInt8) (hlength : payloadLength.toNat ≤ 16) (m : ℕ → UInt8) :
    let step : ConfigStep := ⟨msgClass, msgId, payloadLength, List.ofFn payload⟩
    let frame := (step.send buf m).2
    (∀ address, address < buf ∨ buf + configTransmitBufSize ≤ address →
        (step.send buf m).1 address = m address) ∧
      frame.length = 8 + payloadLength.toNat ∧
      UbxMessage.parse frame =
        some ⟨msgClass, msgId, (List.ofFn payload).take payloadLength.toNat⟩ ∧
      ChecksumHolds frame ∧ frame = configFrame step ∧
      ∀ (order : ByteOrder) (received : UbxNavPvtFrame) (oldITow : UInt32),
        UbxNavPvt.isFrameValid order received oldITow = true ↔ received.iTow ≠ oldITow ∧
          ∃ payload, payload.length = 92 ∧ UbxMessage.parse (List.ofFn received) =
            some ⟨UbxNavPvtFrame.clsNav, UbxNavPvtFrame.idNavPvt, payload⟩ := by
  intro step frame
  have hpayload : step.payloadLength.toNat ≤ step.payload.length := by
    rw [List.length_ofFn]
    exact hlength
  have hframe : frame = step.message.encode := congrArg Prod.snd (step.send_eq buf m)
  have hsize : step.message.encode.length = 8 + payloadLength.toNat := by
    rw [UbxMessage.length_encode, step.length_message_payload]
  have hmessage : step.message =
      ⟨msgClass, msgId, (List.ofFn payload).take payloadLength.toNat⟩ := by
    rw [← step.message_payload_eq_take hpayload]
    rfl
  refine ⟨?_, by rw [hframe, hsize], ?_, ?_, ?_, ?_⟩
  · intro address houtside
    rw [step.send_eq]
    apply Memory.write_outside
    rw [hsize]
    unfold configTransmitBufSize at houtside
    omega
  · have hshort : step.message.payload.length < 256 ^ 2 := by
      rw [step.length_message_payload]
      exact lt_of_le_of_lt hlength (by decide)
    rw [hframe, UbxMessage.parse_encode _ hshort, hmessage]
  · rw [hframe]
    exact step.message.checksumHolds_encode
  · rw [hframe, step.message_encode_eq hpayload]
  · intro order received oldITow
    rw [UbxNavPvt.isFrameValid_eq, isFrameValid_iff_parse]

/-- A full buffer, after a frame of another step. -/
theorem config_frame_agrees_full :
    (16 : UInt8).toNat ≤ 16 ∧
      UbxMessage.parse (ConfigStep.send 0 ⟨0x06, 0x08, 16, List.ofFn fun _ : Fin 16 => 0xFF⟩
        fun _ => 0x55).2 = some ⟨0x06, 0x08, List.replicate 16 0xFF⟩ :=
  ⟨by decide, (config_frame_agrees 0 0x06 0x08 16 (fun _ => 0xFF) (by decide)
    fun _ => 0x55).2.2.1⟩

end SnipeIt.Ddl
