import SnipeIt.Support.Memory
import SnipeIt.Support.Ring

/-! # The WebSocket server (`websocket_server.c`)

The server knows one client and a ring of messages for it. The library calls
it back when a connection is established, may be written to, or is closed.
-/

namespace SnipeIt.WebSocket
open Support Support.Memory

def wsMaxMsgSize : ℕ := 4096

def wsQueueSize : ℕ := 256

structure WsQueuedMessage where
  data : Fin wsMaxMsgSize → UInt8
  len : ℕ
  len_lt : len < wsMaxMsgSize

namespace WsQueuedMessage

def zero : WsQueuedMessage := ⟨fun _ => 0, 0, by decide⟩

/-- `memcpy(&data, bytes)` and the new length. -/
def copy (msg : WsQueuedMessage) (bytes : List UInt8) (h : bytes.length < wsMaxMsgSize) :
    WsQueuedMessage where
  data := restrict wsMaxMsgSize (write (extend msg.data fun _ => 0) 0 bytes)
  len := bytes.length
  len_lt := h

def firstBytes (msg : WsQueuedMessage) (n : ℕ) : List UInt8 := read (extend msg.data fun _ => 0) 0 n

def bytes (msg : WsQueuedMessage) : List UInt8 := msg.firstBytes msg.len

theorem copy_bytes (msg : WsQueuedMessage) (bs : List UInt8) (h : bs.length < wsMaxMsgSize) :
    (msg.copy bs h).bytes = bs := by
  have hlen : 0 + bs.length ≤ wsMaxMsgSize := by omega
  simp only [bytes, firstBytes, copy]
  rw [read_extend_restrict _ _ _ _ _ hlen, read_write_self]

theorem bytes_length (msg : WsQueuedMessage) : msg.bytes.length = msg.len := read_length _ _ _

theorem firstBytes_eq_take (msg : WsQueuedMessage) {n : ℕ} (h : n ≤ msg.len) :
    msg.firstBytes n = msg.bytes.take n := by
  rw [bytes, firstBytes, firstBytes, take_read _ _ _ _ h]

end WsQueuedMessage

/-- A connection is a number, `none` stands for `NULL`. The ring holds `queue`, `queue_head`,
`queue_tail` and `queue_count`. -/
structure WebSocketServer where
  clientWsi : Option ℕ
  clientConnected : Bool
  queue : Ring WsQueuedMessage wsQueueSize
  queueDropped : ℕ

namespace WebSocketServer

/-- Forget the client and empty the queue, as an eviction and a close both do. -/
def reset (ws : WebSocketServer) : WebSocketServer :=
  { ws with clientWsi := none, clientConnected := false, queue := ws.queue.clear }

/-- Make room in a full ring by dropping its oldest message. -/
def makeRoom (ws : WebSocketServer) : WebSocketServer :=
  if h : wsQueueSize ≤ ws.queue.count then
    { ws with
      queue := ws.queue.drop (Nat.lt_of_lt_of_le (by decide) h)
      queueDropped := ws.queueDropped + 1 }
  else ws

theorem makeRoom_count_lt (ws : WebSocketServer) : ws.makeRoom.queue.count < wsQueueSize := by
  have hle := ws.queue.count_le
  have hpos : 0 < wsQueueSize := by decide
  rw [makeRoom]
  split
  · simp only [Ring.drop]
    omega
  · omega

/-- The oldest message is dropped exactly from a full ring. -/
theorem makeRoom_content (ws : WebSocketServer) :
    ws.makeRoom.queue.content =
      if ws.queue.count = wsQueueSize then ws.queue.content.tail else ws.queue.content := by
  have hle := ws.queue.count_le
  rw [makeRoom]
  split
  · rw [if_pos (by omega), Ring.content_drop]
  · rw [if_neg (by omega)]

end WebSocketServer

/-- `ws_init` when the queue and the context could be created. -/
def wsInit : WebSocketServer :=
  ⟨none, false, Ring.init (fun _ => .zero) (by decide), 0⟩

/-- Add a message to the ring; the value is -1 if there is no client or the message does not fit
a slot. The connection is asked for a writable callback. -/
def wsQueueMessage (ws : WebSocketServer) (data : List UInt8) : ℤ × WebSocketServer :=
  if ¬ ws.clientConnected ∨ ws.clientWsi = none then (-1, ws)
  else if h : data.length < wsMaxMsgSize then
    (0, { ws.makeRoom with
      queue := ws.makeRoom.queue.put
        ((ws.makeRoom.queue.slot ws.makeRoom.queue.head).copy data h) ws.makeRoom_count_lt })
  else (-1, ws)

/-- The number of bytes the writable callback copies behind the padding. -/
def writeLen (lwsPre : ℕ) (msg : WsQueuedMessage) : ℕ :=
  if sizeSub wsMaxMsgSize lwsPre < msg.len then sizeSub wsMaxMsgSize lwsPre else msg.len

/-- `SERVER_WRITEABLE` with messages in the queue: the bytes handed to `lws_write` and the
server without the oldest message. -/
def wsWrite (lwsPre : ℕ) (ws : WebSocketServer) (h : 0 < ws.queue.count) :
    List UInt8 × WebSocketServer :=
  (ws.queue.front.firstBytes (writeLen lwsPre ws.queue.front), { ws with queue := ws.queue.drop h })

/-- What is written is the queued message, cut behind the write limit. -/
theorem wsWrite_bytes (lwsPre : ℕ) (ws : WebSocketServer) (h : 0 < ws.queue.count) :
    (wsWrite lwsPre ws h).1 = ws.queue.front.bytes.take (sizeSub wsMaxMsgSize lwsPre) := by
  rw [wsWrite, writeLen]
  split
  · exact ws.queue.front.firstBytes_eq_take (by omega)
  · rw [List.take_of_length_le (by rw [WsQueuedMessage.bytes_length]; omega)]
    rfl

theorem wsQueueMessage_accepts_iff (ws : WebSocketServer) (data : List UInt8) :
    (wsQueueMessage ws data).1 = 0 ↔
      ws.clientConnected = true ∧ ws.clientWsi ≠ none ∧ data.length < wsMaxMsgSize := by
  rw [wsQueueMessage]
  split_ifs with hconn hlen
  · simp only [show (-1 : ℤ) ≠ 0 by decide, false_iff]
    tauto
  · simp only [true_iff]
    tauto
  · simp only [show (-1 : ℤ) ≠ 0 by decide, false_iff]
    tauto

/-- An accepted message becomes the newest one; a full ring loses its oldest. -/
theorem wsQueueMessage_content (ws : WebSocketServer) (data : List UInt8)
    (hok : (wsQueueMessage ws data).1 = 0) :
    (wsQueueMessage ws data).2.queue.content.map WsQueuedMessage.bytes =
      (if ws.queue.count = wsQueueSize then (ws.queue.content.map WsQueuedMessage.bytes).tail
        else ws.queue.content.map WsQueuedMessage.bytes) ++ [data] := by
  obtain ⟨hconn, hwsi, hlen⟩ := (wsQueueMessage_accepts_iff ws data).mp hok
  rw [wsQueueMessage, if_neg (by simp [hconn, hwsi]), dif_pos hlen]
  simp only [Ring.content_put, ws.makeRoom_content, List.map_append, List.map_singleton,
    WsQueuedMessage.copy_bytes]
  split_ifs
  · rw [List.map_tail]
  · rfl

theorem wsQueueMessage_refused (ws : WebSocketServer) (data : List UInt8)
    (h : (wsQueueMessage ws data).1 ≠ 0) : (wsQueueMessage ws data).2 = ws := by
  rw [wsQueueMessage] at h ⊢
  split_ifs at h ⊢ with hconn hlen
  · rfl
  · exact absurd rfl h
  · rfl

theorem wsQueueMessage_client (ws : WebSocketServer) (data : List UInt8) :
    (wsQueueMessage ws data).2.clientWsi = ws.clientWsi ∧
      (wsQueueMessage ws data).2.clientConnected = ws.clientConnected := by
  have hroom : ws.makeRoom.clientWsi = ws.clientWsi ∧
      ws.makeRoom.clientConnected = ws.clientConnected := by
    rw [WebSocketServer.makeRoom]
    split <;> exact ⟨rfl, rfl⟩
  rw [wsQueueMessage]
  split_ifs
  · exact ⟨rfl, rfl⟩
  · exact hroom
  · exact ⟨rfl, rfl⟩

end SnipeIt.WebSocket
