import SnipeIt.Ipc.Connection

/-! # What one call does to the received bytes

`content` is the list view of the receive buffer. Receiving appends to it, a
line that fits the caller's buffer is cut off its front, and a longer line
leaves a length that no longer belongs to the newline.
-/

namespace SnipeIt.Ipc
open Support.Memory Support.LineStream

namespace IPCConnection

/-- The bytes `recv` hands over in a call. -/
def handed (conn : IPCConnection) (recv : (space : ℕ) → RecvResult space) : List UInt8 :=
  if conn.recvLen < recvBufferSize - 1 then
    match recv (recvBufferSize - conn.recvLen - 1) with
    | .data bytes _ _ => bytes
    | _ => []
  else []

/-- The call asks `recv` and hears that the peer is gone, or an error. -/
def hangsUp (conn : IPCConnection) (recv : (space : ℕ) → RecvResult space) : Prop :=
  conn.recvLen < recvBufferSize - 1 ∧
    (recv (recvBufferSize - conn.recvLen - 1) = .closed ∨
      recv (recvBufferSize - conn.recvLen - 1) = .error)

@[simp] theorem close_content (conn : IPCConnection) : conn.close.content = conn.content := rfl

@[simp] theorem close_clientFd (conn : IPCConnection) : conn.close.clientFd = none := rfl

@[simp] theorem store_recvLen (conn : IPCConnection) (mem : ℕ → UInt8) (n : ℕ)
    (h : n < recvBufferSize) : (conn.store mem n h).recvLen = n := rfl

@[simp] theorem store_clientFd (conn : IPCConnection) (mem : ℕ → UInt8) (n : ℕ)
    (h : n < recvBufferSize) : (conn.store mem n h).clientFd = conn.clientFd := rfl

@[simp] theorem store_content (conn : IPCConnection) (mem : ℕ → UInt8) (n : ℕ)
    (h : n < recvBufferSize) : (conn.store mem n h).content = read mem 0 n := by
  rw [content, store_recvLen, cells, store, read_extend_restrict _ _ _ _ _ (by omega),
    read_write_disjoint _ _ _ _ _ (by omega)]

theorem read_cells (conn : IPCConnection) (outside : ℕ → UInt8) (a n : ℕ)
    (h : a + n ≤ conn.recvLen) :
    read (conn.cells outside) a n = (conn.content.drop a).take n := by
  have hlt := conn.recvLen_lt
  rw [content, drop_read _ _ _ _ (by omega), take_read _ _ _ _ (by omega), Nat.zero_add]
  exact read_extend_inside _ _ _ _ _ (by omega)

theorem recvInto_content (conn : IPCConnection) (recv : (space : ℕ) → RecvResult space) :
    (conn.recvInto recv).content = conn.content ++ conn.handed recv := by
  rw [recvInto, handed]
  split
  · cases recv (recvBufferSize - conn.recvLen - 1) with
    | data bytes _ fits =>
      simp only [store_content]
      rw [read_add, Nat.zero_add, read_write_self, read_write_disjoint _ _ _ _ _ (by omega)]
      rfl
    | closed => simp
    | again => simp
    | error => simp
  · simp

theorem recvInto_clientFd (conn : IPCConnection) (recv : (space : ℕ) → RecvResult space)
    (hc : conn.clientFd ≠ none) : (conn.recvInto recv).clientFd = none ↔ conn.hangsUp recv := by
  rw [recvInto, hangsUp]
  split
  · next h => cases recv (recvBufferSize - conn.recvLen - 1) <;> simp [h, hc]
  · next h => simp [h, hc]

theorem recvInto_full (conn : IPCConnection) (recv : (space : ℕ) → RecvResult space)
    (h : conn.recvLen = recvBufferSize - 1) : conn.recvInto recv = conn := by
  rw [recvInto, dif_neg (by omega)]

@[simp] theorem takeLine_clientFd (conn : IPCConnection) {k : ℕ} (hk : k < conn.recvLen)
    (buffsize : ℕ) (outside : ℕ → UInt8) :
    (conn.takeLine k hk buffsize outside).conn.clientFd = conn.clientFd := by
  rw [takeLine, store_clientFd]

theorem takeLine_recvLen (conn : IPCConnection) {k : ℕ} (hk : k < conn.recvLen)
    {buffsize : ℕ} (hb : 0 < buffsize) (outside : ℕ → UInt8) :
    (conn.takeLine k hk buffsize outside).conn.recvLen =
      conn.recvLen - min (k + 1) buffsize := by
  rw [← conn.remaining_eq hk hb, takeLine, store_recvLen]

theorem takeLine_value (conn : IPCConnection) {k : ℕ} (hk : k < conn.recvLen)
    {buffsize : ℕ} (hb : 0 < buffsize) (outside : ℕ → UInt8) :
    (conn.takeLine k hk buffsize outside).value = (min k (buffsize - 1) : ℕ) := by
  have hlt : conn.recvLen < 65536 := conn.recvLen_lt
  simp only [takeLine, msgLen]
  split_ifs with h
  · rw [sizeSub_of_le (by omega) (by omega)]
    omega
  · omega

/-- A line that fits is handed out whole and cut off the received bytes. -/
theorem takeLine_short (conn : IPCConnection) {k : ℕ} (hk : k < conn.recvLen)
    {buffsize : ℕ} (hb : k < buffsize) (outside : ℕ → UInt8) :
    (conn.takeLine k hk buffsize outside).conn.content = conn.content.drop (k + 1) ∧
      (conn.takeLine k hk buffsize outside).message = conn.content.take k ∧
      ∀ r ∈ (conn.takeLine k hk buffsize outside).copied, r.1 + r.2 ≤ conn.recvLen := by
  have hlen : msgLen k buffsize = k := if_neg (by omega)
  have hrem : conn.remaining k buffsize = conn.recvLen - (k + 1) := by
    rw [conn.remaining_eq hk (by omega)]
    omega
  refine ⟨?_, ?_, ?_⟩
  · rw [takeLine, store_content, hrem]
    split_ifs with hpos
    · have hself := read_write_self (conn.cells outside) 0
        (read (conn.cells outside) (k + 1) (conn.recvLen - (k + 1)))
      rw [read_length] at hself
      rw [hself, conn.read_cells _ _ _ (by omega), List.take_of_length_le (by simp)]
    · rw [show conn.recvLen - (k + 1) = 0 by omega, read_zero,
        List.drop_eq_nil_of_le (by simp; omega)]
  · show read (conn.cells outside) 0 (msgLen k buffsize) = conn.content.take k
    rw [hlen, conn.read_cells _ _ _ (by omega), List.drop_zero]
  · intro r hr
    simp only [takeLine, hlen, hrem, List.mem_cons] at hr
    rcases hr with rfl | hr
    · simp only [Nat.zero_add]
      omega
    · split_ifs at hr
      · rw [List.mem_singleton] at hr
        subst r
        show k + 1 + (conn.recvLen - (k + 1)) ≤ conn.recvLen
        omega
      · simp at hr

end IPCConnection

open IPCConnection

/-- The three ways a call on a connected client can end. -/
theorem ipcRecvMessage_cases (conn : IPCConnection) (buffsize : ℕ)
    (recv : (space : ℕ) → RecvResult space) (outside : ℕ → UInt8) (hc : conn.clientFd ≠ none) :
    (conn.hangsUp recv ∧
      ipcRecvMessage conn buffsize recv outside = ⟨conn.recvInto recv, -1, [], []⟩) ∨
    (¬ conn.hangsUp recv ∧ findEnd lf nul (conn.recvInto recv).content = none ∧
      ipcRecvMessage conn buffsize recv outside = ⟨conn.recvInto recv, 0, [], []⟩) ∨
    (¬ conn.hangsUp recv ∧ ∃ k, ∃ hk : k < (conn.recvInto recv).recvLen,
      findEnd lf nul (conn.recvInto recv).content = some k ∧
      ipcRecvMessage conn buffsize recv outside =
        (conn.recvInto recv).takeLine k hk buffsize outside) := by
  rw [ipcRecvMessage, if_neg hc]
  by_cases hup : (conn.recvInto recv).clientFd = none
  · exact .inl ⟨(conn.recvInto_clientFd recv hc).mp hup, by rw [dif_pos hup]⟩
  · have hlive : ¬ conn.hangsUp recv := fun h => hup ((conn.recvInto_clientFd recv hc).mpr h)
    rw [dif_neg hup]
    split
    · next hnone =>
      rw [newline_eq _ hup] at hnone
      exact .inr (.inl ⟨hlive, hnone, rfl⟩)
    · next k hsome =>
      have hk := newline_lt _ hup hsome
      rw [newline_eq _ hup] at hsome
      exact .inr (.inr ⟨hlive, k, hk, hsome, rfl⟩)

end SnipeIt.Ipc
