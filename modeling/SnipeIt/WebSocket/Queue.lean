import Mathlib.Data.List.DropRight
import SnipeIt.WebSocket.Session

/-! # The ring as a queue that drops its oldest message

What is stored at any time is told by a record of the messages: which were
accepted since the last reset, which of these were taken out again, and how
often a message was copied over one that was still stored.
-/

namespace SnipeIt.WebSocket
open Support

/-- What the program and the library do to the ring. -/
inductive QueueAct where
  | queueMessage (data : List UInt8)
  | serverWriteable
  | evict (wsi : ℕ)
  | register (wsi : ℕ)
  | closed (wsi : ℕ)

/-- The server with the messages accepted since the last reset, the numbers of those that were
dequeued, the number of the message that each slot was filled with last, and how many messages
were copied into a slot that was in use. -/
structure QueueHistory where
  server : WebSocketServer
  accepted : List (List UInt8)
  dequeued : List ℕ
  number : ℕ → ℕ
  overwritten : ℕ

namespace WebSocketServer

/-- A new client takes the place of the present one. -/
def Evicts (ws : WebSocketServer) (wsi : ℕ) : Prop :=
  ws.clientConnected ∧ ws.clientWsi ≠ none ∧ ws.clientWsi ≠ some wsi

instance (ws : WebSocketServer) (wsi : ℕ) : Decidable (ws.Evicts wsi) :=
  inferInstanceAs (Decidable (_ ∧ _ ∧ _))

end WebSocketServer

namespace QueueHistory

def init : QueueHistory := ⟨wsInit, [], [], fun _ => 0, 0⟩

/-- The client is forgotten, and the record with its messages. -/
def reset (s : QueueHistory) : QueueHistory :=
  { s with server := s.server.reset, accepted := [], dequeued := [] }

/-- `ws_queue_message`, with what it makes of the slot at `queue_head`. -/
def queueMessage (s : QueueHistory) (data : List UInt8) : QueueHistory :=
  let q := s.server.queue
  if (wsQueueMessage s.server data).1 = 0 then
    { server := (wsQueueMessage s.server data).2
      accepted := s.accepted ++ [data]
      dequeued := s.dequeued
      number := Function.update s.number q.head s.accepted.length
      overwritten := if q.InUse q.head then s.overwritten + 1 else s.overwritten }
  else { s with server := (wsQueueMessage s.server data).2 }

def serverWriteable (lwsPre : ℕ) (s : QueueHistory) : QueueHistory :=
  if h : 0 < s.server.queue.count then
    { s with
      server := (wsWrite lwsPre s.server h).2
      dequeued := s.dequeued ++ [s.number s.server.queue.tail] }
  else s

def apply (lwsPre : ℕ) (s : QueueHistory) : QueueAct → QueueHistory
  | .queueMessage data => s.queueMessage data
  | .serverWriteable => s.serverWriteable lwsPre
  | .evict wsi => if s.server.Evicts wsi then s.reset else s
  | .register wsi =>
    { s with server := { s.server with clientWsi := some wsi, clientConnected := true } }
  | .closed wsi => if s.server.clientWsi = some wsi then s.reset else s

def Step (lwsPre : ℕ) (s : QueueHistory) (a : QueueAct) (t : QueueHistory) : Prop :=
  t = s.apply lwsPre a

def stored (s : QueueHistory) : List (List UInt8) :=
  s.server.queue.content.map WsQueuedMessage.bytes

/-- The messages accepted since the last reset that have not been dequeued. -/
def undequeued (s : QueueHistory) : List (List UInt8) :=
  (s.accepted.zipIdx.filter fun message => message.2 ∉ s.dequeued).map Prod.fst

/-! ## The invariant -/

/-- The ring holds the last messages that were accepted, and what was dequeued came before. -/
structure Fifo (s : QueueHistory) : Prop where
  numbered : s.server.queue.Numbered s.number s.accepted.length
  stored : s.stored = s.accepted.rtake s.server.queue.count
  before : ∀ n ∈ s.dequeued, n < s.accepted.length - s.server.queue.count
  dropped : s.server.queueDropped = s.overwritten

variable {lwsPre : ℕ} {s t : QueueHistory} {a : QueueAct} {acts : List QueueAct}

theorem init_fifo : init.Fifo :=
  ⟨Ring.numbered_of_count rfl _ _, rfl, fun _ h => (List.not_mem_nil h).elim, rfl⟩

theorem Fifo.reset (h : s.Fifo) : s.reset.Fifo :=
  ⟨Ring.numbered_of_count rfl _ _, rfl, fun _ h => (List.not_mem_nil h).elim, h.dropped⟩

theorem makeRoom_numbered {ws : WebSocketServer} {number : ℕ → ℕ} {n : ℕ}
    (h : ws.queue.Numbered number n) : ws.makeRoom.queue.Numbered number n := by
  rw [WebSocketServer.makeRoom]
  split_ifs with hfull
  · exact h.drop (Nat.lt_of_lt_of_le (by decide) hfull)
  · exact h

theorem makeRoom_head (ws : WebSocketServer) : ws.makeRoom.queue.head = ws.queue.head := by
  rw [WebSocketServer.makeRoom]
  split_ifs <;> rfl

theorem makeRoom_queueDropped (ws : WebSocketServer) :
    ws.makeRoom.queueDropped =
      if ws.queue.InUse ws.queue.head then ws.queueDropped + 1 else ws.queueDropped := by
  have hle := ws.queue.count_le
  simp only [WebSocketServer.makeRoom, Ring.head_inUse_iff]
  split_ifs
  · rfl
  · omega
  · omega
  · rfl

/-- What an accepted message does to the numbers in the ring. -/
theorem wsQueueMessage_queue {ws : WebSocketServer} {data : List UInt8}
    (hok : (wsQueueMessage ws data).1 = 0) :
    ∃ hlen, (wsQueueMessage ws data).2.queue = ws.makeRoom.queue.put
        ((ws.makeRoom.queue.slot ws.makeRoom.queue.head).copy data hlen) ws.makeRoom_count_lt ∧
      (wsQueueMessage ws data).2.queueDropped = ws.makeRoom.queueDropped := by
  obtain ⟨hconn, hwsi, hlen⟩ := (wsQueueMessage_accepts_iff ws data).mp hok
  refine ⟨hlen, ?_⟩
  rw [wsQueueMessage, if_neg (by simp [hconn, hwsi]), dif_pos hlen]
  exact ⟨rfl, rfl⟩

/-- An accepted message becomes the newest one; a full ring loses its oldest. -/
theorem queueMessage_stored {data : List UInt8} (hok : (wsQueueMessage s.server data).1 = 0) :
    (s.queueMessage data).stored =
      (if s.server.queue.count = wsQueueSize then s.stored.tail else s.stored) ++ [data] := by
  rw [queueMessage]
  simp only [if_pos hok, stored, wsQueueMessage_content _ _ hok]

theorem length_stored (s : QueueHistory) : s.stored.length = s.server.queue.count := by
  rw [stored, List.length_map, Ring.content_length]

theorem queueMessage_count {data : List UInt8} (hok : (wsQueueMessage s.server data).1 = 0) :
    (s.queueMessage data).server.queue.count =
      if s.server.queue.count = wsQueueSize then wsQueueSize else s.server.queue.count + 1 := by
  have hpos : 0 < wsQueueSize := by decide
  rw [← length_stored, queueMessage_stored hok, List.length_append, List.length_singleton]
  split_ifs with hfull
  · rw [List.length_tail, length_stored]
    omega
  · rw [length_stored]

theorem Fifo.queueMessage (h : s.Fifo) (data : List UInt8) : (s.queueMessage data).Fifo := by
  by_cases hok : (wsQueueMessage s.server data).1 = 0
  · have hcount := queueMessage_count hok
    have hstored := queueMessage_stored hok
    have hle := h.numbered.count_le
    have hpos : 0 < wsQueueSize := by decide
    obtain ⟨hlen, hqueue, hdropped⟩ := wsQueueMessage_queue hok
    rw [QueueHistory.queueMessage, if_pos hok] at hcount hstored ⊢
    refine ⟨?_, ?_, fun n hn => ?_, ?_⟩
    · dsimp only
      rw [hqueue, List.length_append, ← makeRoom_head s.server]
      exact (makeRoom_numbered h.numbered).put _ _
    · rw [hstored, h.stored]
      simp only [List.rtake, List.length_append, List.length_singleton] at hcount ⊢
      rw [hcount]
      split_ifs with hfull
      · have hshift : s.accepted.length + 1 - wsQueueSize =
            s.accepted.length - s.server.queue.count + 1 := by omega
        rw [List.tail_drop, hshift, List.drop_append_of_le_length (by omega)]
      · rw [Nat.add_sub_add_right, List.drop_append_of_le_length (Nat.sub_le _ _)]
    · have hbefore := h.before n hn
      simp only [List.length_append, List.length_singleton] at hcount ⊢
      rw [hcount]
      split_ifs with hfull
      · omega
      · omega
    · dsimp only
      rw [hdropped, makeRoom_queueDropped, h.dropped]
  · have hsame := wsQueueMessage_refused s.server data hok
    rw [QueueHistory.queueMessage, if_neg hok, hsame]
    exact h

theorem Fifo.serverWriteable (h : s.Fifo) : (s.serverWriteable lwsPre).Fifo := by
  rw [QueueHistory.serverWriteable]
  split_ifs with hpos
  · have hle := h.numbered.count_le
    refine ⟨h.numbered.drop hpos, ?_, fun n hn => ?_, h.dropped⟩
    · have hstored := h.stored
      rw [QueueHistory.stored, List.rtake] at hstored ⊢
      have hqueue : (wsWrite lwsPre s.server hpos).2.queue = s.server.queue.drop hpos := rfl
      have hcount : (s.server.queue.drop hpos).count = s.server.queue.count - 1 := rfl
      have hshift : s.accepted.length - s.server.queue.count + 1 =
          s.accepted.length - (s.server.queue.count - 1) := by omega
      dsimp only
      rw [hqueue, Ring.content_drop, List.map_tail, hstored, List.tail_drop, hshift, hcount]
    · simp only [wsWrite, Ring.drop]
      rcases List.mem_append.mp hn with hold | hnew
      · have hbefore := h.before n hold
        omega
      · rw [List.mem_singleton.mp hnew, h.numbered.oldest hpos]
        omega
  · exact h

theorem Fifo.apply (h : s.Fifo) (a : QueueAct) : (s.apply lwsPre a).Fifo := by
  cases a with
  | queueMessage data => exact h.queueMessage data
  | serverWriteable => exact h.serverWriteable
  | evict wsi =>
    rw [QueueHistory.apply]
    split_ifs
    · exact h.reset
    · exact h
  | register wsi => exact ⟨h.numbered, h.stored, h.before, h.dropped⟩
  | closed wsi =>
    rw [QueueHistory.apply]
    split_ifs
    · exact h.reset
    · exact h

theorem run_fifo (h : Run (Step lwsPre) init acts s) : s.Fifo :=
  h.invariant init_fifo fun _ a _ hs hstep => hstep ▸ hs.apply a

/-- The messages behind all that were dequeued are the last ones that were not. -/
theorem Fifo.stored_eq (h : s.Fifo) : s.stored = s.undequeued.rtake s.server.queue.count := by
  have hle := h.numbered.count_le
  generalize hk : s.accepted.length - s.server.queue.count = k at h
  have hlength : (s.accepted.take k).length = k := by
    rw [List.length_take]
    omega
  have hall : ((s.accepted.drop k).zipIdx (s.accepted.take k).length).filter
      (fun message => message.2 ∉ s.dequeued) =
        (s.accepted.drop k).zipIdx (s.accepted.take k).length := by
    rw [List.filter_eq_self]
    rintro ⟨data, n⟩ hmem
    have hbefore := h.before
    have hn := List.le_snd_of_mem_zipIdx hmem
    rw [hlength] at hn
    simp only [decide_eq_true_eq]
    intro hin
    have hlt := hbefore n hin
    omega
  have hsplit : s.undequeued = (((s.accepted.take k).zipIdx.filter fun message =>
      message.2 ∉ s.dequeued).map Prod.fst) ++ s.accepted.drop k := by
    have happend := List.take_append_drop k s.accepted
    rw [undequeued]
    conv_lhs => rw [← happend]
    rw [List.zipIdx_append, List.filter_append, Nat.zero_add, hall, List.map_append,
      List.zipIdx_map_fst]
  rw [h.stored, hsplit]
  simp only [List.rtake, List.length_append, List.length_drop, hk]
  have hlast : s.accepted.length - k = s.server.queue.count := by omega
  rw [hlast, Nat.add_sub_cancel, List.drop_left]

/-- The ring as a queue that drops its oldest element. In every run the indices agree, the ring
stores exactly the last messages since the reset that were not dequeued, and `queue_dropped`,
without its limit, counts the messages that were copied over a stored one. This happens to the
oldest one, and exactly in a full ring. -/
theorem queue_drops_oldest {lwsPre : ℕ} {acts : List QueueAct} {s : QueueHistory}
    (h : Run (Step lwsPre) init acts s) :
    let q := s.server.queue
    q.count ≤ wsQueueSize ∧ q.head = (q.tail + q.count) % wsQueueSize ∧
      s.stored = s.undequeued.rtake q.count ∧ s.server.queueDropped = s.overwritten ∧
      (0 < q.count → (s.serverWriteable lwsPre).stored = s.stored.tail) ∧
      ∀ data, (wsQueueMessage s.server data).1 = 0 →
        (q.InUse q.head ↔ q.count = wsQueueSize) ∧
        (q.count = wsQueueSize → q.head = q.tail ∧
          (s.queueMessage data).stored = s.stored.tail ++ [data] ∧
          (s.queueMessage data).overwritten = s.overwritten + 1) ∧
        (q.count ≠ wsQueueSize → (s.queueMessage data).stored = s.stored ++ [data] ∧
          (s.queueMessage data).overwritten = s.overwritten) := by
  have hfifo := run_fifo h
  refine ⟨s.server.queue.count_le, s.server.queue.head_eq, hfifo.stored_eq, hfifo.dropped, ?_, ?_⟩
  · intro hpos
    have hqueue : (wsWrite lwsPre s.server hpos).2.queue = s.server.queue.drop hpos := rfl
    rw [serverWriteable, dif_pos hpos, stored, stored, hqueue, Ring.content_drop, List.map_tail]
  · intro data hok
    have hstored := queueMessage_stored hok
    refine ⟨s.server.queue.head_inUse_iff, fun hfull => ?_, fun hroom => ?_⟩
    · have huse := s.server.queue.head_inUse_iff.mpr hfull
      rw [if_pos hfull] at hstored
      refine ⟨s.server.queue.head_eq_tail hfull, hstored, ?_⟩
      simp only [queueMessage, if_pos hok, if_pos huse]
    · have huse := s.server.queue.head_inUse_iff.not.mpr hroom
      rw [if_neg hroom] at hstored
      refine ⟨hstored, ?_⟩
      simp only [queueMessage, if_pos hok, if_neg huse]

def fullRing : QueueHistory :=
  (.register 0 :: List.replicate wsQueueSize (.queueMessage [97])).foldl (apply 16) init

theorem queue_drops_oldest_full :
    fullRing.server.queue.count = wsQueueSize ∧
      fullRing.stored = fullRing.undequeued.rtake wsQueueSize ∧
      (fullRing.queueMessage [98]).stored = fullRing.stored.tail ++ [[98]] ∧
      (fullRing.queueMessage [98]).overwritten = fullRing.overwritten + 1 := by
  have hfull : fullRing.server.queue.count = wsQueueSize := by decide +kernel
  have hok : (wsQueueMessage fullRing.server [98]).1 = 0 := by decide +kernel
  have hrun : Run (Step 16) init (.register 0 :: List.replicate wsQueueSize (.queueMessage [97]))
      fullRing := Run.of_foldl (apply 16) init _
  obtain ⟨-, -, hstored, -, -, hmessage⟩ := queue_drops_oldest hrun
  obtain ⟨-, hoverwrites, -⟩ := hmessage [98] hok
  obtain ⟨-, hnext, hlost⟩ := hoverwrites hfull
  exact ⟨hfull, hfull ▸ hstored, hnext, hlost⟩

end QueueHistory

/-! ## The callbacks -/

namespace Callbacks

variable {lwsPre : ℕ} {s t : Callbacks}

theorem queueMessage_server (u : Service) (json : List UInt8) :
    (u.queueMessage json).2.server = (wsQueueMessage u.server json).2 := by
  rcases u.queueMessage_cases json with ⟨-, heq⟩ | ⟨hok, heq⟩
  · rw [heq]
    rfl
  · rw [heq, wsQueueMessage_refused _ _ hok]

/-- A statement of a callback does nothing to the ring, or one of its operations. -/
theorem exec_queue (lwsPre : ℕ) (s : Callbacks) (rest : List Stmt) (outer : List (List Stmt))
    (stmt : Stmt) {r : QueueHistory} (hr : r.server = s.service.server) :
    (s.exec lwsPre rest outer stmt).service.server = r.server ∨
      ∃ a, (s.exec lwsPre rest outer stmt).service.server = (r.apply lwsPre a).server := by
  cases stmt with
  | evict wsi =>
    refine .inr ⟨.evict wsi, ?_⟩
    simp only [exec, QueueHistory.apply, WebSocketServer.Evicts, hr]
    split_ifs
    · simp [QueueHistory.reset, Service.forgetClient, hr]
    · exact hr.symm
  | register wsi =>
    exact .inr ⟨.register wsi, by simp [exec, QueueHistory.apply, Service.register, hr]⟩
  | onConnect ready => exact .inl hr.symm
  | onDisconnect => exact .inl hr.symm
  | sendReady text =>
    refine .inr ⟨.queueMessage text, ?_⟩
    simp only [exec, queueMessage_server, QueueHistory.apply, QueueHistory.queueMessage, ← hr]
    split_ifs <;> rfl
  | service => exact .inl hr.symm
  | forget wsi =>
    refine .inr ⟨.closed wsi, ?_⟩
    simp only [exec, QueueHistory.apply, hr]
    split_ifs
    · simp [QueueHistory.reset, Service.forgetClient, hr]
    · exact hr.symm
  | write wsi =>
    refine .inr ⟨.serverWriteable, ?_⟩
    simp only [exec, Service.serverWriteable, QueueHistory.apply, QueueHistory.serverWriteable,
      ← hr]
    split_ifs <;> rfl

/-- A step of the callbacks is a run of the operations of the ring. -/
theorem step_queue {a : CallbackAct} (h : Step lwsPre s a t) {r : QueueHistory}
    (hr : r.server = s.service.server) :
    ∃ acts r', Run (QueueHistory.Step lwsPre) r acts r' ∧ r'.server = t.service.server := by
  obtain ⟨-, happly⟩ := h
  cases a with
  | event ev =>
    cases ev with
    | enqueue json =>
      cases happly
      refine ⟨_, _, .single (a := .queueMessage json) rfl, ?_⟩
      simp only [queueMessage_server, QueueHistory.apply, QueueHistory.queueMessage, ← hr]
      split_ifs <;> rfl
    | _ =>
      simp only [apply] at happly
      split_ifs at happly
      cases happly
      exact ⟨[], r, .nil, hr⟩
  | run =>
    simp only [apply] at happly
    split at happly
    · cases happly
      rename_i stmt rest outer _
      rcases exec_queue lwsPre s rest outer stmt hr with hsame | ⟨a, hop⟩
      · exact ⟨[], r, .nil, hsame.symm⟩
      · exact ⟨[a], _, .single rfl, hop.symm⟩
    · cases happly
  | ret =>
    simp only [apply] at happly
    split at happly
    · cases happly
      exact ⟨[], r, .nil, hr⟩
    · cases happly

/-- Whatever the callbacks do, nested in each other or not, the ring is in a state that its own
operations lead to. -/
theorem run_queue {as : List CallbackAct} (h : Run (Step lwsPre) init as t) :
    ∃ acts r, Run (QueueHistory.Step lwsPre) QueueHistory.init acts r ∧
      r.server = t.service.server := by
  induction h with
  | nil => exact ⟨[], _, .nil, rfl⟩
  | snoc _ hstep ih =>
    obtain ⟨acts, r, hrun, hr⟩ := ih
    obtain ⟨acts', r', hrun', hr'⟩ := step_queue hstep hr
    exact ⟨acts ++ acts', r', hrun.append hrun', hr'⟩

end Callbacks

end SnipeIt.WebSocket
