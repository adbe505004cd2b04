import SnipeIt.Support.LineStream

/-! # The detector's connection (`unix_socket.c`)

The C server keeps the bytes it received from the Python detector in one array
and looks for a newline in it with the string functions of C, so the array is
kept terminated by a zero byte while a client is connected.
-/

namespace SnipeIt.Ipc
open Support.Memory Support.LineStream

def recvBufferSize : ℕ := 65536

/-- `MAX_MSG_SIZE`, the size of every buffer a caller passes. -/
def maxMsgSize : ℕ := 4096

def lf : UInt8 := 10
def nul : UInt8 := 0

theorem nul_ne_lf : nul ≠ lf := by decide

/-- A descriptor is `none` where the source stores -1. The last byte of the buffer is never
part of the data, and `strchr` on the buffer of a connected client stops at `recvLen`. -/
structure IPCConnection where
  serverFd : Option ℕ
  clientFd : Option ℕ
  recvBuffer : Fin recvBufferSize → UInt8
  recvLen : ℕ
  recvLen_lt : recvLen < recvBufferSize
  terminated : clientFd ≠ none → recvBuffer ⟨recvLen, recvLen_lt⟩ = nul

/-- What `recv` may answer when it is asked for `space` bytes. -/
inductive RecvResult (space : ℕ) where
  | data (bytes : List UInt8) (nonempty : bytes ≠ []) (fits : bytes.length ≤ space)
  | closed
  | again
  | error

/-- What a call leaves behind: the connection, the value returned, the bytes stored in the
caller's buffer before its terminator, and the ranges (offset, length) of `recv_buffer` that
`memcpy` and `memmove` were asked to read. -/
structure RecvReturn where
  conn : IPCConnection
  value : ℤ
  message : List UInt8
  copied : List (ℕ × ℕ)

namespace IPCConnection

def cells (conn : IPCConnection) (outside : ℕ → UInt8) : ℕ → UInt8 :=
  extend conn.recvBuffer outside

/-- The bytes the connection counts as received and not yet handed out. -/
def content (conn : IPCConnection) : List UInt8 :=
  read (conn.cells fun _ => nul) 0 conn.recvLen

/-- `close(client_fd)` and `client_fd = -1`. -/
def close (conn : IPCConnection) : IPCConnection where
  serverFd := conn.serverFd
  clientFd := none
  recvBuffer := conn.recvBuffer
  recvLen := conn.recvLen
  recvLen_lt := conn.recvLen_lt
  terminated h := absurd rfl h

/-- Store `n` cells of a memory as the received data and terminate them. -/
def store (conn : IPCConnection) (mem : ℕ → UInt8) (n : ℕ) (h : n < recvBufferSize) :
    IPCConnection where
  serverFd := conn.serverFd
  clientFd := conn.clientFd
  recvBuffer := restrict recvBufferSize (write mem n [nul])
  recvLen := n
  recvLen_lt := h
  terminated _ := by simp [restrict, write]

/-- The first part of `ipc_recv_message`: unless the buffer is full, receive behind the data
that is already there. The connection is closed when the peer is gone or on an error. -/
def recvInto (conn : IPCConnection) (recv : (space : ℕ) → RecvResult space) : IPCConnection :=
  if h : conn.recvLen < recvBufferSize - 1 then
    match recv (recvBufferSize - conn.recvLen - 1) with
    | .data bytes _ fits =>
      conn.store (write (conn.cells fun _ => nul) conn.recvLen bytes)
        (conn.recvLen + bytes.length) (by omega)
    | .closed => conn.close
    | .again => conn
    | .error => conn.close
  else conn

/-- `strchr(recv_buffer, '\n')`, as an offset. -/
def newline (conn : IPCConnection) : Option ℕ :=
  scan lf nul (conn.cells fun _ => nul) recvBufferSize 0

theorem cells_recvLen (conn : IPCConnection) (hc : conn.clientFd ≠ none)
    (outside : ℕ → UInt8) : conn.cells outside conn.recvLen = nul := by
  rw [cells, extend, dif_pos conn.recvLen_lt]
  exact conn.terminated hc

@[simp] theorem content_length (conn : IPCConnection) : conn.content.length = conn.recvLen := by
  simp [content]

/-- The terminator keeps the search inside the received bytes. -/
theorem newline_eq (conn : IPCConnection) (hc : conn.clientFd ≠ none) :
    conn.newline = findEnd lf nul conn.content := by
  rw [newline, scan_eq_findEnd _ 0 conn.recvLen _ nul_ne_lf
    (by simpa using conn.cells_recvLen hc _) conn.recvLen_lt]
  simp [content]

theorem newline_lt (conn : IPCConnection) (hc : conn.clientFd ≠ none) {k : ℕ}
    (hk : conn.newline = some k) : k < conn.recvLen := by
  rw [conn.newline_eq hc] at hk
  simpa using findEnd_lt nul_ne_lf hk

/-- The length that is handed out for a newline at `k`: a longer line is cut to the buffer. -/
def msgLen (k buffsize : ℕ) : ℕ := if buffsize ≤ k then sizeSub buffsize 1 else k

/-- The value the source stores in `recv_len` after a line was taken. -/
def remaining (conn : IPCConnection) (k buffsize : ℕ) : ℕ :=
  sizeSub conn.recvLen (msgLen k buffsize + 1)

theorem remaining_eq (conn : IPCConnection) {k buffsize : ℕ} (hk : k < conn.recvLen)
    (hb : 0 < buffsize) : conn.remaining k buffsize = conn.recvLen - min (k + 1) buffsize := by
  have hsize : conn.recvLen < 65536 := conn.recvLen_lt
  rw [remaining, msgLen]
  split_ifs with h
  · rw [sizeSub_of_le hb (by omega), sizeSub_of_le (by omega) (by omega)]
    omega
  · rw [sizeSub_of_le (by omega) (by omega)]
    omega

theorem remaining_lt (conn : IPCConnection) {k buffsize : ℕ} (hk : k < conn.recvLen) :
    conn.remaining k buffsize < recvBufferSize := by
  have hsize : conn.recvLen < recvBufferSize := conn.recvLen_lt
  rcases Nat.eq_zero_or_pos buffsize with rfl | hb
  · have hsize' : conn.recvLen < 65536 := hsize
    simp only [remaining, msgLen, sizeSub, Nat.zero_le, if_true]
    omega
  · rw [conn.remaining_eq hk hb]
    omega

/-- The last part of `ipc_recv_message`, for a newline at `k`: copy the line out and move what
is behind the newline to the front. The cells behind the array are `outside`. -/
def takeLine (conn : IPCConnection) (k : ℕ) (hk : k < conn.recvLen) (buffsize : ℕ)
    (outside : ℕ → UInt8) : RecvReturn where
  conn := conn.store
    (if 0 < conn.remaining k buffsize
      then write (conn.cells outside) 0
        (read (conn.cells outside) (k + 1) (conn.remaining k buffsize))
      else conn.cells outside)
    (conn.remaining k buffsize) (conn.remaining_lt hk)
  value := msgLen k buffsize
  message := read (conn.cells outside) 0 (msgLen k buffsize)
  copied := (0, msgLen k buffsize) :: if 0 < conn.remaining k buffsize
    then [(k + 1, conn.remaining k buffsize)] else []

end IPCConnection

open IPCConnection

/-- `ipc_server_init`; `fd` is the listening socket, if `socket`, `bind` and `listen` succeed. -/
def ipcServerInit (fd : Option ℕ) : ℤ × IPCConnection :=
  (if fd = none then -1 else 0,
    { serverFd := fd, clientFd := none, recvBuffer := fun _ => nul, recvLen := 0,
      recvLen_lt := by decide, terminated := fun h => absurd rfl h })

/-- `ipc_accept_client`; `accepted` is what `accept` returns and `nonblocking` whether the
socket could be made non-blocking. -/
def ipcAcceptClient (conn : IPCConnection) (accepted : Option ℕ) (nonblocking : Bool) :
    ℤ × IPCConnection :=
  if conn.serverFd = none then (-1, conn)
  else match accepted, nonblocking with
    | some fd, true =>
      (0, { conn with
        clientFd := some fd
        recvBuffer := fun i => if i.val = 0 then nul else conn.recvBuffer i
        recvLen := 0
        recvLen_lt := by decide
        terminated := fun _ => by simp })
    | _, _ => (-1, conn.close)

def ipcDisconnectClient (conn : IPCConnection) : IPCConnection :=
  if conn.clientFd = none then conn
  else { conn.close with
    recvLen := 0
    recvLen_lt := by decide
    terminated := fun h => absurd rfl h }

def ipcRecvMessage (conn : IPCConnection) (buffsize : ℕ)
    (recv : (space : ℕ) → RecvResult space) (outside : ℕ → UInt8) : RecvReturn :=
  if conn.clientFd = none then ⟨conn, -1, [], []⟩
  else if hc : (conn.recvInto recv).clientFd = none then ⟨conn.recvInto recv, -1, [], []⟩
  else match hk : (conn.recvInto recv).newline with
    | none => ⟨conn.recvInto recv, 0, [], []⟩
    | some k => (conn.recvInto recv).takeLine k (newline_lt _ hc hk) buffsize outside

end SnipeIt.Ipc
