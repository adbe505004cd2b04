import SnipeIt.Support.Run
import SnipeIt.WebSocket.Server

/-! # Callbacks of the WebSocket library

The callbacks of `websocket_server.c` and `main.c` run one at a time: one that
the library runs from inside `send_stream_ready` finds the outer one with
nothing left to do. The library establishes and closes any number of
connections, and a connection that asked for it gets a writable callback until
it is closed, also after it was evicted. Every accepted message is numbered and
remembers the client that it was queued for.
-/

namespace SnipeIt.WebSocket
open Support

structure Accepted where
  id : ℕ
  addressee : Option ℕ
  data : List UInt8

structure Write where
  dest : ℕ
  message : Accepted
  bytes : List UInt8

inductive Phase where
  | fresh
  | open
  | closed
deriving DecidableEq

/-- The server with the library's connections, and the history: the accepted messages in the
ring, the number of the next one, and what was written. -/
structure Service where
  server : WebSocketServer
  androidConnected : Bool
  phase : ℕ → Phase
  asked : ℕ → Bool
  pending : List Accepted
  nextId : ℕ
  written : List Write

inductive Event where
  | established (wsi : ℕ) (ready : Option (List UInt8))
  | closed (wsi : ℕ)
  | serverWriteable (wsi : ℕ)
  | enqueue (json : List UInt8)

namespace Service

def init : Service := ⟨wsInit, false, fun _ => .fresh, fun _ => false, [], 0, []⟩

/-- The message is in the ring and its client is asked to become writable. -/
def accept (s : Service) (json : List UInt8) : Service :=
  { s with
    server := (wsQueueMessage s.server json).2
    asked := fun c => s.server.clientWsi = some c || s.asked c
    pending := (if s.server.queue.count = wsQueueSize then s.pending.tail else s.pending) ++
      [⟨s.nextId, s.server.clientWsi, json⟩]
    nextId := s.nextId + 1 }

/-- `ws_send_json` and `ws_send`: `ws_queue_message` with its request for a writable callback. -/
def queueMessage (s : Service) (json : List UInt8) : ℤ × Service :=
  ((wsQueueMessage s.server json).1,
    if (wsQueueMessage s.server json).1 = 0 then s.accept json else s)

/-- `on_android_connect`; `ready` is the text of `send_stream_ready`, if the stream is there. -/
def onAndroidConnect (s : Service) (ready : Option (List UInt8)) : Service :=
  match ready with
  | some text => (queueMessage { s with androidConnected := true } text).2
  | none => { s with androidConnected := true }

/-- The client is forgotten and `on_android_disconnect` runs. -/
def detach (s : Service) : Service :=
  { s with server := s.server.reset, androidConnected := false, pending := [] }

def register (s : Service) (wsi : ℕ) : Service :=
  { s with server := { s.server with clientWsi := some wsi, clientConnected := true } }

def established (s : Service) (wsi : ℕ) (ready : Option (List UInt8)) : Service :=
  (if s.server.clientConnected ∧ s.server.clientWsi ≠ none ∧ s.server.clientWsi ≠ some wsi
    then s.detach else s).register wsi |>.onAndroidConnect ready

def closed (s : Service) (wsi : ℕ) : Service :=
  if s.server.clientWsi = some wsi then s.detach else s

def serverWriteable (lwsPre : ℕ) (s : Service) (wsi : ℕ) : Service :=
  if h : 0 < s.server.queue.count then
    { s with
      server := (wsWrite lwsPre s.server h).2
      asked := fun c =>
        if c = wsi then 0 < (wsWrite lwsPre s.server h).2.queue.count else s.asked c
      pending := s.pending.tail
      written := s.written ++ (s.pending.head?.map fun m =>
        ⟨wsi, m, (wsWrite lwsPre s.server h).1⟩).toList }
  else { s with asked := fun c => if c = wsi then false else s.asked c }

/-- `forward_detection`; `none` when no client is connected. -/
def forwardDetection (s : Service) (json : List UInt8) : Option ℤ × Service :=
  if s.androidConnected then (some (s.queueMessage json).1, (s.queueMessage json).2) else (none, s)

def apply (lwsPre : ℕ) (s : Service) : Event → Service
  | .established wsi ready =>
    { s.established wsi ready with phase := fun c => if c = wsi then .open else s.phase c }
  | .closed wsi =>
    { s.closed wsi with
      phase := fun c => if c = wsi then .closed else s.phase c
      asked := fun c => if c = wsi then false else s.asked c }
  | .serverWriteable wsi => s.serverWriteable lwsPre wsi
  | .enqueue json => (s.queueMessage json).2

/-- What the library may do next. -/
def Enabled (s : Service) : Event → Prop
  | .established wsi _ => s.phase wsi = .fresh
  | .closed wsi => s.phase wsi = .open
  | .serverWriteable wsi => s.phase wsi = .open ∧ s.asked wsi = true
  | .enqueue _ => True

def Step (lwsPre : ℕ) (s : Service) (ev : Event) (t : Service) : Prop :=
  s.Enabled ev ∧ t = s.apply lwsPre ev

/-! ## The session of a message -/

/-- The messages in the ring are accepted ones of the present client, and what was written was
cut from an accepted one. -/
structure Consistent (lwsPre : ℕ) (s : Service) : Prop where
  ring : s.pending.map (·.data) = s.server.queue.content.map WsQueuedMessage.bytes
  connected : s.server.clientConnected = true ↔ s.server.clientWsi ≠ none
  addressee : ∀ m ∈ s.pending, m.addressee = s.server.clientWsi
  client : s.server.clientWsi = none → s.pending = []
  older : ∀ m ∈ s.pending, m.id < s.nextId
  cut : ∀ w ∈ s.written,
    w.message.id < s.nextId ∧ w.bytes = w.message.data.take (Memory.sizeSub wsMaxMsgSize lwsPre)

variable {lwsPre : ℕ} {s : Service}

theorem init_consistent : Consistent lwsPre init :=
  ⟨rfl, by simp [init, wsInit], by simp [init], fun _ => rfl, by simp [init], by simp [init]⟩

/-- Consistency does not look at the library's side. -/
theorem Consistent.congr {t : Service} (h : s.Consistent lwsPre) (hserver : t.server = s.server)
    (hpending : t.pending = s.pending) (hnext : t.nextId = s.nextId)
    (hwritten : t.written = s.written) : t.Consistent lwsPre := by
  refine ⟨?_, ?_, ?_, ?_, ?_, ?_⟩
  · rw [hpending, hserver]
    exact h.ring
  · rw [hserver]
    exact h.connected
  · rw [hpending, hserver]
    exact h.addressee
  · rw [hpending, hserver]
    exact h.client
  · rw [hpending, hnext]
    exact h.older
  · rw [hwritten, hnext]
    exact h.cut

theorem Consistent.pending_length (h : s.Consistent lwsPre) :
    s.pending.length = s.server.queue.count := by
  have := congrArg List.length h.ring
  simpa using this

theorem mem_kept {m : Accepted} {b : Prop} [Decidable b]
    (h : m ∈ if b then s.pending.tail else s.pending) : m ∈ s.pending := by
  split at h
  · exact List.mem_of_mem_tail h
  · exact h

theorem queueMessage_cases (json : List UInt8) :
    ((s.queueMessage json).1 = 0 ∧ (s.queueMessage json).2 = s.accept json) ∨
      ((s.queueMessage json).1 ≠ 0 ∧ (s.queueMessage json).2 = s) := by
  by_cases hok : (wsQueueMessage s.server json).1 = 0
  · exact .inl ⟨hok, if_pos hok⟩
  · exact .inr ⟨hok, if_neg hok⟩

theorem accept_consistent (h : s.Consistent lwsPre) {json : List UInt8}
    (hok : (wsQueueMessage s.server json).1 = 0) : (s.accept json).Consistent lwsPre := by
  have hclient := wsQueueMessage_client s.server json
  refine ⟨?_, ?_, ?_, ?_, ?_, ?_⟩
  · simp only [accept]
    rw [wsQueueMessage_content _ _ hok, ← h.ring]
    split_ifs <;> simp [List.map_tail]
  · simp only [accept, hclient.1, hclient.2, h.connected]
  · intro m hm
    simp only [accept, hclient.1]
    rcases List.mem_append.mp hm with hold | hnew
    · exact h.addressee m (mem_kept hold)
    · rw [List.mem_singleton.mp hnew]
  · intro hnone
    simp only [accept, hclient.1] at hnone
    exact absurd hnone ((wsQueueMessage_accepts_iff _ _).mp hok).2.1
  · intro m hm
    rcases List.mem_append.mp hm with hold | hnew
    · exact Nat.lt_succ_of_lt (h.older m (mem_kept hold))
    · rw [List.mem_singleton.mp hnew]
      exact Nat.lt_succ_self _
  · exact fun w hw => ⟨Nat.lt_succ_of_lt (h.cut w hw).1, (h.cut w hw).2⟩

theorem queueMessage_consistent (h : s.Consistent lwsPre) (json : List UInt8) :
    (s.queueMessage json).2.Consistent lwsPre := by
  rcases s.queueMessage_cases json with ⟨hok, heq⟩ | ⟨-, heq⟩
  · rw [heq]
    exact accept_consistent h hok
  · rwa [heq]

theorem detach_consistent (h : s.Consistent lwsPre) : s.detach.Consistent lwsPre :=
  ⟨rfl, by simp [detach, WebSocketServer.reset], by simp [detach], fun _ => rfl,
    by simp [detach], h.cut⟩

/-- A client is registered when the ring holds nothing for anybody else. -/
theorem register_consistent (h : s.Consistent lwsPre) {wsi : ℕ}
    (hfree : s.server.clientWsi = none ∨ s.server.clientWsi = some wsi) :
    (s.register wsi).Consistent lwsPre := by
  refine ⟨h.ring, by simp [register], ?_, by simp [register], h.older, h.cut⟩
  intro m hm
  rcases hfree with hnone | hsome
  · have hempty : s.pending = [] := h.client hnone
    have hm' : m ∈ s.pending := hm
    simp [hempty] at hm'
  · exact (h.addressee m hm).trans hsome

theorem onAndroidConnect_consistent (h : s.Consistent lwsPre) (ready : Option (List UInt8)) :
    (s.onAndroidConnect ready).Consistent lwsPre := by
  have hflag : Consistent lwsPre { s with androidConnected := true } :=
    ⟨h.ring, h.connected, h.addressee, h.client, h.older, h.cut⟩
  cases ready with
  | none => exact hflag
  | some text => exact queueMessage_consistent hflag text

theorem established_consistent (h : s.Consistent lwsPre) (wsi : ℕ)
    (ready : Option (List UInt8)) : (s.established wsi ready).Consistent lwsPre := by
  apply onAndroidConnect_consistent
  split_ifs with hold
  · exact register_consistent (detach_consistent h) (.inl rfl)
  · refine register_consistent h ?_
    have hconn := h.connected
    tauto

theorem closed_consistent (h : s.Consistent lwsPre) (wsi : ℕ) :
    (s.closed wsi).Consistent lwsPre := by
  rw [closed]
  split_ifs
  · exact detach_consistent h
  · exact h

/-- A writable callback takes the oldest message of the present client, whoever it is for. -/
theorem serverWriteable_cases (h : s.Consistent lwsPre) (wsi : ℕ) :
    (s.server.queue.count = 0 ∧ (s.serverWriteable lwsPre wsi).written = s.written ∧
      (s.serverWriteable lwsPre wsi).pending = s.pending ∧
      (s.serverWriteable lwsPre wsi).server = s.server) ∨
    ∃ m rest, ∃ hpos : 0 < s.server.queue.count, s.pending = m :: rest ∧
      m.addressee = s.server.clientWsi ∧ m.id < s.nextId ∧
      (s.serverWriteable lwsPre wsi).pending = rest ∧
      (s.serverWriteable lwsPre wsi).server = (wsWrite lwsPre s.server hpos).2 ∧
      (s.serverWriteable lwsPre wsi).written =
        s.written ++ [⟨wsi, m, m.data.take (Memory.sizeSub wsMaxMsgSize lwsPre)⟩] := by
  rw [serverWriteable]
  by_cases hpos : 0 < s.server.queue.count
  · have hlen := h.pending_length
    obtain ⟨m, rest, hpending⟩ : ∃ m rest, s.pending = m :: rest :=
      List.exists_cons_of_length_pos (by omega)
    have hring := h.ring
    rw [hpending, s.server.queue.content_eq_front_cons hpos, List.map_cons, List.map_cons,
      List.cons.injEq] at hring
    have hmem : m ∈ s.pending := by
      rw [hpending]
      exact List.mem_cons_self
    refine .inr ⟨m, rest, hpos, hpending, h.addressee m hmem, h.older m hmem, ?_⟩
    rw [dif_pos hpos, wsWrite_bytes, ← hring.1, hpending]
    exact ⟨rfl, rfl, rfl⟩
  · rw [dif_neg hpos]
    exact .inl ⟨by omega, rfl, rfl, rfl⟩

theorem serverWriteable_nextId (wsi : ℕ) :
    (s.serverWriteable lwsPre wsi).nextId = s.nextId := by
  rw [serverWriteable]
  split <;> rfl

theorem serverWriteable_consistent (h : s.Consistent lwsPre) (wsi : ℕ) :
    (s.serverWriteable lwsPre wsi).Consistent lwsPre := by
  have hnext : (s.serverWriteable lwsPre wsi).nextId = s.nextId := serverWriteable_nextId wsi
  rcases serverWriteable_cases h wsi with
    ⟨-, hwritten, hpending, hserver⟩ |
    ⟨m, rest, hpos, hsplit, -, hid, hpending, hserver, hwritten⟩
  · exact h.congr hserver hpending hnext hwritten
  · have hsub : ∀ m' ∈ rest, m' ∈ s.pending := by
      intro m' hm'
      rw [hsplit]
      exact List.mem_cons_of_mem m hm'
    have hring := h.ring
    rw [hsplit, s.server.queue.content_eq_front_cons hpos, List.map_cons, List.map_cons,
      List.cons.injEq] at hring
    have hclient : s.server.clientWsi ≠ none := by
      intro hnone
      have hempty := h.client hnone
      simp [hsplit] at hempty
    have hlogged : Consistent lwsPre
        { s with
          server := (wsWrite lwsPre s.server hpos).2
          pending := rest
          written := s.written ++
            [⟨wsi, m, m.data.take (Memory.sizeSub wsMaxMsgSize lwsPre)⟩] } := by
      refine ⟨hring.2, h.connected, fun m' hm' => h.addressee m' (hsub m' hm'),
        fun hnone => absurd hnone hclient, fun m' hm' => h.older m' (hsub m' hm'), ?_⟩
      intro w hw
      rcases List.mem_append.mp hw with hold | hnew
      · exact h.cut w hold
      · rw [List.mem_singleton.mp hnew]
        exact ⟨hid, rfl⟩
    exact hlogged.congr hserver hpending hnext hwritten

theorem step_consistent {ev : Event} {t : Service} (h : s.Consistent lwsPre)
    (hstep : Step lwsPre s ev t) : t.Consistent lwsPre := by
  obtain ⟨-, rfl⟩ := hstep
  cases ev with
  | established wsi ready => exact (established_consistent h wsi ready).congr rfl rfl rfl rfl
  | closed wsi => exact (closed_consistent h wsi).congr rfl rfl rfl rfl
  | serverWriteable wsi => exact serverWriteable_consistent h wsi
  | enqueue json => exact queueMessage_consistent h json

theorem run_consistent {evs : List Event} (h : Run (Step lwsPre) init evs s) :
    s.Consistent lwsPre :=
  h.invariant init_consistent (fun _ _ _ hs hstep => step_consistent hs hstep)

end Service

end SnipeIt.WebSocket
