import SnipeIt.Status
import SnipeIt.Support.CStruct
import SnipeIt.Support.Memory

/-! # The registers of an I2C device

A write puts the bytes of the register and the data into a staging buffer on the
stack, of which it makes one message. A read hands on the register as it lies in
memory, and the buffer of the caller in a second message.
-/

namespace SnipeIt.Hal.I2c
open Support

def maxMessageSizeBytes : UInt64 := 8

def deviceCount : UInt32 := 1

def rdwrIoctlMaxMsgs : ℕ := 42

/-- `I2C_M_RD`. -/
def msgRead : UInt16 := 0x0001

/-- `struct i2c_msg`, with the memory that `buf` points to. -/
structure Msg where
  addr : UInt8
  flags : UInt16
  len : UInt16
  buf : ℕ → UInt8

/-- The fields of an `I2CDevice` that go into its messages. -/
structure Device where
  flags : UInt16
  address : UInt8

structure Copy where
  offset : ℕ
  length : ℕ

/-- What a call does: the copies that it makes, the messages of the transfer that it starts, and
the status that it returns. -/
structure Call where
  status : Status
  messages : Option (List Msg)
  copies : List Copy

def Call.refused (status : Status) : Call := ⟨status, none, []⟩

/-- `hal_i2c_transfer`, where `ok` is the answer of `ioctl`. -/
def transfer (deviceIndex : UInt32) (messages : List Msg) (ok : Bool) :
    Status × Option (List Msg) :=
  if deviceCount ≤ deviceIndex then (.invalidValue, none)
  else if rdwrIoctlMaxMsgs < messages.length then (.invalidValue, none)
  else (if ok then .successful else .deviceError, some messages)

/-- The bytes that the loop of `hal_i2c_write_reg` makes of the register. -/
def shiftedBytes (reg : UInt16) (regLen : ℕ) : List UInt8 :=
  (List.range regLen).map fun i => UInt8.ofNat (reg.toNat >>> (regLen - 1 - i))

/-- `hal_i2c_write_reg`. The staging buffer is at address 0 of the stack. -/
def writeReg (device : Device) (deviceIndex : UInt32) (reg : UInt16) (regLen : UInt64)
    (buffer : Option (ℕ → UInt8)) (numBytes : UInt64) (stack : ℕ → UInt8) (ok : Bool) : Call :=
  if deviceCount ≤ deviceIndex then .refused .invalidValue
  else
    match buffer with
    | none => .refused .nullParam
    | some buffer =>
      if maxMessageSizeBytes < numBytes + regLen then .refused .nullParam
      else
        let combined := Memory.write stack 0 (shiftedBytes reg regLen.toNat)
        let combined :=
          Memory.write combined regLen.toNat (Memory.read buffer 0 numBytes.toNat)
        let (status, messages) := transfer deviceIndex
          [⟨device.address, device.flags, (regLen + numBytes).toUInt16, combined⟩] ok
        ⟨status, messages, [⟨0, regLen.toNat⟩, ⟨regLen.toNat, numBytes.toNat⟩]⟩

/-- `hal_i2c_read_reg`. The register is at address 0 of the stack. -/
def readReg (order : ByteOrder) (device : Device) (deviceIndex : UInt32) (reg : UInt16)
    (regLen : UInt64) (buffer : Option (ℕ → UInt8)) (numBytes : UInt64) (stack : ℕ → UInt8)
    (ok : Bool) : Call :=
  if deviceCount ≤ deviceIndex then .refused .invalidValue
  else
    match buffer with
    | none => .refused .nullParam
    | some buffer =>
      let (status, messages) := transfer deviceIndex
        [⟨device.address, device.flags, regLen.toUInt16,
            Memory.write stack 0 (order.store 2 reg.toNat)⟩,
          ⟨device.address, device.flags ||| msgRead, numBytes.toUInt16, buffer⟩] ok
      ⟨status, messages, []⟩

/-- An error, and no transfer. -/
def Call.Refused (call : Call) : Prop := call.status ≠ .successful ∧ call.messages = none

/-- Every copy stays inside the staging buffer. -/
def Call.Bounded (call : Call) : Prop :=
  ∀ copy ∈ call.copies, copy.offset + copy.length ≤ maxMessageSizeBytes.toNat

/-- A refused write, or one message of the register, most significant byte first, and the data. -/
def Call.Writes (reg : UInt16) (regLen : UInt64) (buffer : Option (ℕ → UInt8)) (numBytes : UInt64)
    (call : Call) : Prop :=
  call.Bounded ∧ (call.Refused ∨
    ∃ data msg, buffer = some data ∧ call.messages = some [msg] ∧
      msg.len.toNat = regLen.toNat + numBytes.toNat ∧
      Memory.read msg.buf 0 msg.len.toNat =
        beBytes regLen.toNat reg.toNat ++ Memory.read data 0 numBytes.toNat)

/-- A refused read, or a message of the register, most significant byte first, and one that reads
so many bytes into the buffer. -/
def Call.Reads (reg : UInt16) (regLen : UInt64) (buffer : Option (ℕ → UInt8)) (numBytes : UInt64)
    (call : Call) : Prop :=
  call.Bounded ∧ (call.Refused ∨
    ∃ data regMsg dataMsg, buffer = some data ∧ call.messages = some [regMsg, dataMsg] ∧
      Memory.read regMsg.buf 0 regMsg.len.toNat = beBytes regLen.toNat reg.toNat ∧
      dataMsg.flags = regMsg.flags ||| msgRead ∧ dataMsg.buf = data ∧
      dataMsg.len.toNat = numBytes.toNat)

/-- The sizes are refused, or nothing overflows and shifting by bits instead of bytes happens to
give the bytes of the register. -/
def WriteFits (reg : UInt16) (regLen numBytes : UInt64) : Prop :=
  maxMessageSizeBytes < numBytes + regLen ∨
    regLen.toNat + numBytes.toNat ≤ maxMessageSizeBytes.toNat ∧
      (regLen.toNat ≤ 1 ∨ (regLen.toNat = 2 ∧ reg.toNat / 2 % 256 = reg.toNat / 256) ∨
        reg.toNat ≤ 1)

/-- The length fits 16 bits, and the memory of the register begins with its bytes. -/
def ReadFits (order : ByteOrder) (reg : UInt16) (regLen numBytes : UInt64) : Prop :=
  numBytes.toNat < 2 ^ 16 ∧
    (regLen.toNat = 0 ∨
      (regLen.toNat = 1 ∧ (order = .little ∨ reg.toNat / 256 = reg.toNat % 256)) ∨
      regLen.toNat = 2 ∧ (order = .big ∨ reg.toNat / 256 = reg.toNat % 256))

/-! ## The write -/

theorem ofNat_eq_iff (a b : ℕ) : UInt8.ofNat a = UInt8.ofNat b ↔ a % 256 = b % 256 := by
  rw [← UInt8.toNat_inj, UInt8.toNat_ofNat', UInt8.toNat_ofNat']

/-- The bytes of the loop are those of the register if each shift by bits gives what one by bytes
gives. -/
theorem shiftedBytes_eq_iff (reg : UInt16) (n : ℕ) : shiftedBytes reg n = beBytes n reg.toNat ↔
    ∀ k < n, reg.toNat / 2 ^ k % 256 = reg.toNat / 256 ^ k % 256 := by
  have hreverse : (shiftedBytes reg n).reverse =
      (List.range n).map fun k => UInt8.ofNat (reg.toNat / 2 ^ k) := by
    rw [shiftedBytes, ← List.map_reverse]
    apply List.ext_getElem
    · simp
    · intro k hk _
      rw [List.length_map, List.length_reverse, List.length_range] at hk
      have hplace : n - 1 - (n - 1 - k) = k := by omega
      simp [hplace, Nat.shiftRight_eq_div_pow]
  rw [beBytes, ← List.reverse_inj, List.reverse_reverse, hreverse, leBytes_eq_map]
  simp only [List.map_inj_left, List.mem_range, ofNat_eq_iff]

theorem shiftedBytes_eq_iff' (reg : UInt16) (n : ℕ) : shiftedBytes reg n = beBytes n reg.toNat ↔
    n ≤ 1 ∨ (n = 2 ∧ reg.toNat / 2 % 256 = reg.toNat / 256) ∨ reg.toNat ≤ 1 := by
  have hlt : reg.toNat < 65536 := reg.toNat_lt
  rw [shiftedBytes_eq_iff]
  constructor
  · intro h
    by_cases hone : n ≤ 1
    · exact .inl hone
    · have hfirst := h 1 (by omega)
      rw [Nat.pow_one, Nat.pow_one] at hfirst
      by_cases htwo : n = 2
      · exact .inr (.inl ⟨htwo, by omega⟩)
      · have hsecond := h 2 (by omega)
        have hzero : reg.toNat / 256 ^ 2 = 0 := Nat.div_eq_of_lt hlt
        rw [hzero] at hsecond
        exact .inr (.inr (by omega))
  · intro h k hk
    match k with
    | 0 => rfl
    | 1 =>
      rw [Nat.pow_one, Nat.pow_one]
      omega
    | k + 2 =>
      have hsmall : reg.toNat ≤ 1 := by omega
      have hbits : reg.toNat / 2 ^ (k + 2) = 0 :=
        Nat.div_eq_of_lt (lt_of_le_of_lt hsmall (Nat.one_lt_two_pow (by omega)))
      have hbytes : reg.toNat / 256 ^ (k + 2) = 0 :=
        Nat.div_eq_of_lt (lt_of_le_of_lt hsmall (Nat.one_lt_pow (by omega) (by decide)))
      rw [hbits, hbytes]

theorem transfer_started {deviceIndex : UInt32} (hdevice : ¬ deviceCount ≤ deviceIndex)
    {messages : List Msg} (hcount : messages.length ≤ rdwrIoctlMaxMsgs) (ok : Bool) :
    transfer deviceIndex messages ok =
      (if ok then .successful else .deviceError, some messages) := by
  rw [transfer, if_neg hdevice, if_neg (Nat.not_lt.mpr hcount)]

section

variable {device : Device} {deviceIndex : UInt32} {reg : UInt16} {regLen numBytes : UInt64}
  {data : ℕ → UInt8} {ok : Bool}

/-- The staging buffer holds the register's bytes and the data behind them. -/
theorem read_combined (stack data : ℕ → UInt8) (bs : List UInt8) (n : ℕ) :
    Memory.read (Memory.write (Memory.write stack 0 bs) bs.length (Memory.read data 0 n)) 0
      (bs.length + n) = bs ++ Memory.read data 0 n := by
  have hwhole := Memory.read_write_self stack 0 (bs ++ Memory.read data 0 n)
  rw [Memory.write_append, List.length_append, Memory.read_length, Nat.zero_add] at hwhole
  exact hwhole

@[simp] theorem length_shiftedBytes (reg : UInt16) (n : ℕ) : (shiftedBytes reg n).length = n := by
  rw [shiftedBytes, List.length_map, List.length_range]

theorem writeReg_started (hdevice : ¬ deviceCount ≤ deviceIndex)
    (hsize : ¬ maxMessageSizeBytes < numBytes + regLen) (stack : ℕ → UInt8) :
    writeReg device deviceIndex reg regLen (some data) numBytes stack ok =
      ⟨if ok then .successful else .deviceError,
        some [⟨device.address, device.flags, (regLen + numBytes).toUInt16,
          Memory.write (Memory.write stack 0 (shiftedBytes reg regLen.toNat)) regLen.toNat
            (Memory.read data 0 numBytes.toNat)⟩],
        [⟨0, regLen.toNat⟩, ⟨regLen.toNat, numBytes.toNat⟩]⟩ := by
  simp only [writeReg, if_neg hdevice, if_neg hsize]
  rw [transfer_started hdevice (by simp [rdwrIoctlMaxMsgs])]

theorem bounded_iff {status : Status} {messages : Option (List Msg)} {n k : ℕ} :
    (⟨status, messages, [⟨0, n⟩, ⟨n, k⟩]⟩ : Call).Bounded ↔ n + k ≤ maxMessageSizeBytes.toNat := by
  simp only [Call.Bounded, List.forall_mem_cons, List.not_mem_nil, false_implies, implies_true,
    and_true]
  omega

/-- Where nothing overflows, the message is as it should be if the register's bytes are. -/
theorem message_iff (hfits : regLen.toNat + numBytes.toNat ≤ maxMessageSizeBytes.toNat)
    (stack : ℕ → UInt8) :
    ((regLen + numBytes).toUInt16.toNat = regLen.toNat + numBytes.toNat ∧
      Memory.read (Memory.write (Memory.write stack 0 (shiftedBytes reg regLen.toNat)) regLen.toNat
        (Memory.read data 0 numBytes.toNat)) 0 (regLen + numBytes).toUInt16.toNat =
        beBytes regLen.toNat reg.toNat ++ Memory.read data 0 numBytes.toNat) ↔
      shiftedBytes reg regLen.toNat = beBytes regLen.toNat reg.toNat := by
  have hmax : maxMessageSizeBytes.toNat = 8 := rfl
  have hlen : (regLen + numBytes).toUInt16.toNat = regLen.toNat + numBytes.toNat := by
    rw [UInt64.toNat_toUInt16, UInt64.toNat_add]
    omega
  have hcombined := read_combined stack data (shiftedBytes reg regLen.toNat) numBytes.toNat
  rw [length_shiftedBytes] at hcombined
  rw [hlen, hcombined, List.append_cancel_right_eq, and_iff_right rfl]

theorem writes_iff (hdevice : ¬ deviceCount ≤ deviceIndex) (stack : ℕ → UInt8) :
    (writeReg device deviceIndex reg regLen (some data) numBytes stack ok).Writes reg regLen
      (some data) numBytes ↔ WriteFits reg regLen numBytes := by
  by_cases hsize : maxMessageSizeBytes < numBytes + regLen
  · have hrefused : writeReg device deviceIndex reg regLen (some data) numBytes stack ok =
        .refused .nullParam := by
      simp only [writeReg, if_neg hdevice, if_pos hsize]
    rw [hrefused]
    exact iff_of_true ⟨by simp [Call.Bounded, Call.refused], .inl ⟨by simp [Call.refused], rfl⟩⟩
      (.inl hsize)
  · rw [writeReg_started hdevice hsize, WriteFits, or_iff_right hsize, Call.Writes, bounded_iff]
    apply and_congr_right
    intro hfits
    rw [← shiftedBytes_eq_iff', ← message_iff hfits stack]
    constructor
    · rintro (hrefused | ⟨data', msg, hdata, hmsg, hlen, hread⟩)
      · cases hrefused.2
      · cases hdata
        cases hmsg
        exact ⟨hlen, hread⟩
    · rintro ⟨hlen, hread⟩
      exact .inr ⟨data, _, rfl, rfl, hlen, hread⟩

/-! ## The read -/

theorem readReg_started {order : ByteOrder} (hdevice : ¬ deviceCount ≤ deviceIndex)
    (stack : ℕ → UInt8) :
    readReg order device deviceIndex reg regLen (some data) numBytes stack ok =
      ⟨if ok then .successful else .deviceError,
        some [⟨device.address, device.flags, regLen.toUInt16,
            Memory.write stack 0 (order.store 2 reg.toNat)⟩,
          ⟨device.address, device.flags ||| msgRead, numBytes.toUInt16, data⟩], []⟩ := by
  simp only [readReg, if_neg hdevice]
  rw [transfer_started hdevice (by simp [rdwrIoctlMaxMsgs])]

theorem store_reg (order : ByteOrder) (reg : UInt16) : order.store 2 reg.toNat =
    match order with
    | .little => [UInt8.ofNat reg.toNat, UInt8.ofNat (reg.toNat / 256)]
    | .big => [UInt8.ofNat (reg.toNat / 256), UInt8.ofNat reg.toNat] := by
  cases order with
  | little => rfl
  | big => rfl

theorem read_store (order : ByteOrder) (reg : UInt16) (stack : ℕ → UInt8) {k : ℕ} (hk : k ≤ 2) :
    Memory.read (Memory.write stack 0 (order.store 2 reg.toNat)) 0 k =
      (order.store 2 reg.toNat).take k := by
  have hwhole := Memory.read_write_self stack 0 (order.store 2 reg.toNat)
  rw [order.length_store] at hwhole
  rw [← Memory.take_read _ _ _ _ hk, hwhole]

/-- Its first bytes are its low ones, most significant first. -/
theorem take_store_iff (order : ByteOrder) (reg : UInt16) {k : ℕ} (hk : k ≤ 2) :
    (order.store 2 reg.toNat).take k = beBytes k reg.toNat ↔
      k = 0 ∨ (k = 1 ∧ (order = .little ∨ reg.toNat / 256 = reg.toNat % 256)) ∨
        k = 2 ∧ (order = .big ∨ reg.toNat / 256 = reg.toNat % 256) := by
  have hlt : reg.toNat < 65536 := reg.toNat_lt
  have hbytes : reg.toNat / 256 % 256 = reg.toNat / 256 := by omega
  have hsame : UInt8.ofNat (reg.toNat / 256) = UInt8.ofNat reg.toNat ↔
      reg.toNat / 256 = reg.toNat % 256 := by
    rw [ofNat_eq_iff, hbytes]
  have hone : beBytes 1 reg.toNat = [UInt8.ofNat reg.toNat] := rfl
  have htwo : beBytes 2 reg.toNat = [UInt8.ofNat (reg.toNat / 256), UInt8.ofNat reg.toNat] := rfl
  rw [store_reg, ← hsame]
  generalize UInt8.ofNat (reg.toNat / 256) = high at htwo ⊢
  generalize UInt8.ofNat reg.toNat = low at hone htwo ⊢
  obtain rfl | rfl | rfl : k = 0 ∨ k = 1 ∨ k = 2 := by omega
  · simp [beBytes, leBytes]
  · cases order <;> simp [hone]
  · cases order <;> simp [htwo, eq_comm]

/-- Behind the register the memory holds anything, so that no more than its two bytes can be meant
to be read. -/
theorem le_two_of_read (order : ByteOrder) (reg : UInt16) {n : ℕ} {bs : List UInt8}
    (h : ∀ stack : ℕ → UInt8,
      Memory.read (Memory.write stack 0 (order.store 2 reg.toNat)) 0 n = bs) : n ≤ 2 := by
  by_contra hlong
  have hbyte (stack : ℕ → UInt8) : bs[2]? = some (stack 2) := by
    have houtside : Memory.write stack 0 (order.store 2 reg.toNat) 2 = stack 2 := by
      apply Memory.write_outside
      rw [order.length_store]
      omega
    have hinside : 2 < n := by omega
    rw [← h stack, Memory.read, List.getElem?_map, List.getElem?_range' hinside]
    exact congrArg some houtside
  have hsame := (hbyte fun _ => 0).symm.trans (hbyte fun _ => 1)
  exact absurd (Option.some.inj hsame) (by decide)

theorem reg_part_iff (order : ByteOrder) (reg : UInt16) (n : UInt64) :
    (∀ stack : ℕ → UInt8, Memory.read (Memory.write stack 0 (order.store 2 reg.toNat)) 0
        n.toUInt16.toNat = beBytes n.toNat reg.toNat) ↔
      n.toNat = 0 ∨ (n.toNat = 1 ∧ (order = .little ∨ reg.toNat / 256 = reg.toNat % 256)) ∨
        n.toNat = 2 ∧ (order = .big ∨ reg.toNat / 256 = reg.toNat % 256) := by
  constructor
  · intro h
    have hlength : n.toUInt16.toNat = n.toNat := by
      have hlengths := congrArg List.length (h fun _ => 0)
      rwa [Memory.read_length, length_beBytes] at hlengths
    have hshort := le_two_of_read order reg h
    rw [hlength] at h hshort
    rw [← take_store_iff order reg hshort, ← read_store order reg (fun _ => 0) hshort, h]
  · intro h stack
    have hshort : n.toNat ≤ 2 := by omega
    have hlength : n.toUInt16.toNat = n.toNat := by
      rw [UInt64.toNat_toUInt16]
      omega
    rw [hlength, read_store order reg stack hshort, take_store_iff order reg hshort]
    exact h

theorem reads_iff {order : ByteOrder} (hdevice : ¬ deviceCount ≤ deviceIndex) :
    (∀ stack, (readReg order device deviceIndex reg regLen (some data) numBytes stack ok).Reads reg
      regLen (some data) numBytes) ↔ ReadFits order reg regLen numBytes := by
  have hlength : numBytes.toUInt16.toNat = numBytes.toNat ↔ numBytes.toNat < 2 ^ 16 := by
    rw [UInt64.toNat_toUInt16]
    omega
  rw [ReadFits, ← reg_part_iff, ← hlength]
  simp only [readReg_started hdevice]
  constructor
  · intro h
    have hparts (stack : ℕ → UInt8) : numBytes.toUInt16.toNat = numBytes.toNat ∧
        Memory.read (Memory.write stack 0 (order.store 2 reg.toNat)) 0 regLen.toUInt16.toNat =
          beBytes regLen.toNat reg.toNat := by
      obtain ⟨-, hrefused | ⟨data', regMsg, dataMsg, -, hmsgs, hreg, -, -, hlen⟩⟩ := h stack
      · cases hrefused.2
      · cases hmsgs
        exact ⟨hlen, hreg⟩
    exact ⟨(hparts fun _ => 0).1, fun stack => (hparts stack).2⟩
  · rintro ⟨hlen, hreg⟩ stack
    exact ⟨by simp [Call.Bounded], .inr ⟨data, _, _, rfl, rfl, hreg stack, rfl, rfl, hlen⟩⟩

end

/-- Register access is consistent and bounded, whatever lies on the stack, exactly where the call
is refused for its device or buffer, or the sizes and the register fit what the two functions
make of them. -/
theorem register_access_iff (order : ByteOrder) (device : Device) (deviceIndex : UInt32)
    (reg : UInt16) (regLen : UInt64) (buffer : Option (ℕ → UInt8)) (numBytes : UInt64)
    (ok : Bool) :
    (∀ stack,
      (writeReg device deviceIndex reg regLen buffer numBytes stack ok).Writes reg regLen buffer
        numBytes ∧
      (readReg order device deviceIndex reg regLen buffer numBytes stack ok).Reads reg regLen
        buffer numBytes) ↔
      deviceCount ≤ deviceIndex ∨ buffer = none ∨
        (WriteFits reg regLen numBytes ∧ ReadFits order reg regLen numBytes) := by
  have hwrites (status : Status) (h : status ≠ .successful) :
      (Call.refused status).Writes reg regLen buffer numBytes :=
    ⟨by simp [Call.Bounded, Call.refused], .inl ⟨h, rfl⟩⟩
  have hreads (status : Status) (h : status ≠ .successful) :
      (Call.refused status).Reads reg regLen buffer numBytes :=
    ⟨by simp [Call.Bounded, Call.refused], .inl ⟨h, rfl⟩⟩
  by_cases hdevice : deviceCount ≤ deviceIndex
  · simp only [writeReg, readReg, if_pos hdevice]
    exact iff_of_true (fun _ => ⟨hwrites _ (by decide), hreads _ (by decide)⟩) (.inl hdevice)
  · cases buffer with
    | none =>
      simp only [writeReg, readReg, if_neg hdevice]
      exact iff_of_true (fun _ => ⟨hwrites _ (by decide), hreads _ (by decide)⟩)
        (.inr (.inl trivial))
    | some data =>
      rw [or_iff_right hdevice, or_iff_right (Option.some_ne_none data), forall_and,
        reads_iff hdevice]
      simp only [writes_iff hdevice, forall_const]

/-- A register of two bytes goes out shifted by one bit instead of one byte. -/
theorem two_byte_register_garbled :
    ((writeReg ⟨0, 0x40⟩ 0 0x0102 2 (some fun _ => 0xAA) 1 (fun _ => 0) true).messages.map
        (·.map fun msg => Memory.read msg.buf 0 msg.len.toNat)) = some [[0x81, 0x02, 0xAA]] ∧
      ¬ ∀ stack,
        (writeReg ⟨0, 0x40⟩ 0 0x0102 2 (some fun _ => 0xAA) 1 stack true).Writes 0x0102 2
          (some fun _ => 0xAA) 1 ∧
        (readReg .little ⟨0, 0x40⟩ 0 0x0102 2 (some fun _ => 0xAA) 1 stack true).Reads 0x0102 2
          (some fun _ => 0xAA) 1 := by
  constructor
  · decide
  · intro h
    have hfits : WriteFits 0x0102 2 1 := (writes_iff (by decide) fun _ => 0).mp (h fun _ => 0).1
    revert hfits
    unfold WriteFits
    decide

end SnipeIt.Hal.I2c
