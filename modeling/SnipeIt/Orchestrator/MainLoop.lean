import SnipeIt.Bridge.Messages
import SnipeIt.Ipc.Framing
import SnipeIt.WebSocket.Order

/-! # The main loop (`main.c`)

The messages of the detector are read in batches and forwarded, and the bridge adds
snapshots of the sensors. The library runs its callbacks when it is serviced, after a
batch and in every tenth turn. What happens to the processes is left out here: it does
not touch the messages.
-/

namespace SnipeIt.Orchestrator
open Support List
open Ipc (Session RecvResult ipcRecvMessage maxMsgSize)
open WebSocket (Service)
open Bridge (TickingBridge ddlBridgeTick buildJson readyMsg ReadyConfig receivedTarget)
open Config (StreamingConfig)
open Detector (DetectionPayload sendDetection Fits)
open Phone (Received DetectedTarget onMessage)

/-- Where the loop is: at its head, in a batch with so many calls left after the next one and so
many messages read, in `ws_service` after a batch that ended with `len`, in front of the counter,
in the `ws_service` of the counter, and in front of the tick. -/
inductive LoopPoint where
  | start
  | batch (left msgCount : ℕ)
  | batchService (len : ℤ)
  | counter
  | counterService
  | tick

/-- The local variables of the loop and the parts of `AppState` that it works on. -/
structure MainLoop where
  ipc : Session
  ws : Service
  bridge : TickingBridge
  pythonConnected : Bool
  wsServiceCounter : ℕ
  totalProcessed : ℕ
  point : LoopPoint

/-- The next thing that happens: the test at the head, a call of `ipc_recv_message`, a callback of
the library, the return from `ws_service`, the counter, and `ddl_bridge_tick` with the two clocks
and the frame that it finds. -/
inductive LoopOp where
  | check
  | recvMessage (recv : (space : ℕ) → RecvResult space) (outside : ℕ → UInt8)
  | callback (ev : WebSocket.Event)
  | serviced
  | count
  | tick (t now : UInt64) (snap : Option Ddl.DDLFrame)

namespace MainLoop

def batchLimit : ℕ := 10

/-- The detector has connected and sends the messages `lines`. -/
def init (conn : Ipc.IPCConnection) (fd : ℕ) (bridge : TickingBridge)
    (lines : List (List UInt8)) : MainLoop :=
  ⟨Session.start conn fd lines, .init, bridge, true, 0, 0, .start⟩

/-- `if (len < 0)` -/
def checkLen (s : MainLoop) (len : ℤ) : MainLoop :=
  if len < 0 then { s with pythonConnected := false, point := .counter }
  else { s with point := .counter }

def afterBatch (s : MainLoop) (msgCount : ℕ) (len : ℤ) : MainLoop :=
  if 0 < msgCount then { s with point := .batchService len } else s.checkLen len

def recvMessage (s : MainLoop) (left msgCount : ℕ) (recv : (space : ℕ) → RecvResult space)
    (outside : ℕ → UInt8) : MainLoop :=
  let r := ipcRecvMessage s.ipc.conn maxMsgSize recv outside
  let s := { s with ipc := s.ipc.call recv outside }
  if 0 < r.value then
    let s := { s with
      ws := (s.ws.forwardDetection r.message).2
      totalProcessed := s.totalProcessed + 1 }
    match left with
    | 0 => s.afterBatch (msgCount + 1) r.value
    | left + 1 => { s with point := .batch left (msgCount + 1) }
  else s.afterBatch msgCount r.value

def tick (s : MainLoop) (t now : UInt64) (snap : Option Ddl.DDLFrame) : MainLoop :=
  let r := ddlBridgeTick s.bridge s.ws.server.clientConnected t now snap
  { s with
    bridge := r.1
    ws := match r.2 with
      | some json => (s.ws.queueMessage json).2
      | none => s.ws
    point := .start }

def apply (lwsPre : ℕ) (s : MainLoop) : LoopOp → Option MainLoop
  | .check =>
    match s.point with
    | .start =>
      if s.pythonConnected ∧ s.ipc.conn.clientFd ≠ none then
        some { s with point := .batch (batchLimit - 1) 0 }
      else some { s with point := .counter }
    | _ => none
  | .recvMessage recv outside =>
    match s.point with
    | .batch left msgCount => some (s.recvMessage left msgCount recv outside)
    | _ => none
  | .callback ev =>
    match s.point with
    | .batchService _ | .counterService => some { s with ws := s.ws.apply lwsPre ev }
    | _ => none
  | .serviced =>
    match s.point with
    | .batchService len => some (s.checkLen len)
    | .counterService => some { s with wsServiceCounter := 0, point := .tick }
    | _ => none
  | .count =>
    match s.point with
    | .counter =>
      some { s with
        wsServiceCounter := s.wsServiceCounter + 1
        point := if 10 ≤ s.wsServiceCounter + 1 then .counterService else .tick }
    | _ => none
  | .tick t now snap =>
    match s.point with
    | .tick => some (s.tick t now snap)
    | _ => none

/-- What the environment may do: `recv` hands over what the detector sent, or the connection is
gone; the library runs the callbacks of its connections, and a client that connects is told the
stream or nothing; the clock and the frame are in their ranges. -/
def Allowed (config : StreamingConfig) (s : MainLoop) : LoopOp → Prop
  | .recvMessage recv _ =>
    (∀ space, Ipc.Serves s.ipc.unread space (recv space)) ∨ s.ipc.conn.hangsUp recv
  | .callback ev =>
    s.ws.Enabled ev ∧ (∀ json, ev ≠ .enqueue json) ∧
      ∀ wsi ready, ev = .established wsi ready → ∀ text ∈ ready, text = readyMsg config
  | .tick _ now snap => now.toNat < 2 ^ 63 ∧ ∀ f ∈ snap, f.InRange
  | _ => True

def Step (config : StreamingConfig) (lwsPre : ℕ) (s : MainLoop) (op : LoopOp) (t : MainLoop) :
    Prop :=
  s.Allowed config op ∧ s.apply lwsPre op = some t

/-- The messages that the loop may add before it comes to the next `ws_service`. -/
def serviceGap : ℕ := 20

/-- The library leaves room for them when it returns. -/
def LeavesRoom (s : MainLoop) : LoopOp → Prop
  | .serviced => s.ws.server.queue.count + serviceGap ≤ WebSocket.wsQueueSize
  | _ => True

def KeepsClient : LoopOp → Prop
  | .callback (.serverWriteable _) => True
  | .callback _ => False
  | _ => True

/-- A step that leaves room. -/
abbrev RoomyStep (config : StreamingConfig) (lwsPre : ℕ) : MainLoop → LoopOp → MainLoop → Prop :=
  Guarded LeavesRoom (Step config lwsPre)

/-- A step of the present client. -/
abbrev SteadyStep (config : StreamingConfig) (lwsPre : ℕ) : MainLoop → LoopOp → MainLoop → Prop :=
  Guarded (fun s op => s.LeavesRoom op ∧ KeepsClient op) (Step config lwsPre)

/-- Messages come back in their order, and none any more once the connection is gone. -/
def Relays (lines : List (List UInt8)) (s : Session) : Prop :=
  (∃ done rest, Session.Holds lines done rest s) ∨
    s.conn.clientFd = none ∧ s.returned <+: lines

variable {lines : List (List UInt8)} {ipc : Session} {recv : (space : ℕ) → RecvResult space}
  {outside : ℕ → UInt8}

theorem Relays.returned (hlines : ∀ m ∈ lines, 0 < m.length) (h : Relays lines ipc) :
    ipc.returned <+: lines := by
  rcases h with ⟨done, rest, -, hsplit, -, hreturned⟩ | ⟨-, hbegins⟩
  · have hfilter : done.filter (· ≠ []) = done := by
      rw [List.filter_eq_self]
      intro m hm
      have hmem : m ∈ lines := hsplit ▸ List.mem_append_left rest hm
      simpa using List.ne_nil_of_length_pos (hlines m hmem)
    rw [hreturned, hfilter, hsplit]
    exact List.prefix_append done rest
  · exact hbegins

theorem relays_call (hlines : ∀ m ∈ lines, Ipc.lf ∉ m ∧ 0 < m.length ∧ m.length < maxMsgSize)
    (h : Relays lines ipc)
    (hrecv : (∀ space, Ipc.Serves ipc.unread space (recv space)) ∨ ipc.conn.hangsUp recv) :
    Relays lines (ipc.call recv outside) := by
  have hbegins := h.returned fun m hm => (hlines m hm).2.1
  have hshort : ∀ m ∈ lines, Ipc.lf ∉ m ∧ m.length < maxMsgSize :=
    fun m hm => ⟨(hlines m hm).1, (hlines m hm).2.2⟩
  rcases h with ⟨done, rest, hs⟩ | ⟨hgone, -⟩
  · rcases hrecv with hserves | hup
    · rcases Session.call_holds hshort hs hserves outside with ⟨-, ht⟩ | ⟨m, rest', -, ht⟩
      · exact .inl ⟨_, _, ht⟩
      · exact .inl ⟨_, _, ht⟩
    · have hres : ipcRecvMessage ipc.conn maxMsgSize recv outside =
          ⟨ipc.conn.recvInto recv, -1, [], []⟩ := by
        rcases Ipc.ipcRecvMessage_cases ipc.conn maxMsgSize recv outside hs.1 with
          ⟨-, hres⟩ | ⟨hlive, -⟩ | ⟨hlive, -⟩
        · exact hres
        · exact absurd hup hlive
        · exact absurd hup hlive
      refine .inr ⟨?_, ?_⟩
      · rw [Session.call, hres]
        exact (Ipc.IPCConnection.recvInto_clientFd _ _ hs.1).mpr hup
      · rw [Session.call, hres]
        simpa using hbegins
  · have hres : ipcRecvMessage ipc.conn maxMsgSize recv outside = ⟨ipc.conn, -1, [], []⟩ :=
      if_pos hgone
    refine .inr ⟨?_, ?_⟩
    · rw [Session.call, hres]
      exact hgone
    · rw [Session.call, hres]
      simpa using hbegins

/-- A message for the phone: one of the detector, a snapshot, or the announcement of the stream. -/
inductive Offer where
  | detections (line : List UInt8)
  | snapshot (f : Ddl.DDLFrame) (now : UInt64)
  | ready

namespace Offer

def bytes (config : StreamingConfig) : Offer → List UInt8
  | .detections line => line
  | .snapshot f now => buildJson f now
  | .ready => readyMsg config

def line : Offer → Option (List UInt8)
  | .detections line => some line
  | _ => none

/-- It comes from the detector, or from a frame and a clock in their ranges. -/
def Genuine (lines : List (List UInt8)) : Offer → Prop
  | .detections line => line ∈ lines
  | .snapshot f now => f.InRange ∧ now.toNat < 2 ^ 63
  | .ready => True

end Offer

variable {config : StreamingConfig} {lwsPre : ℕ} {s t : MainLoop}

/-! ## One step -/

theorem checkLen_same (s : MainLoop) (len : ℤ) :
    (s.checkLen len).ipc = s.ipc ∧ (s.checkLen len).ws = s.ws ∧
      (s.checkLen len).point = .counter ∧
      (s.checkLen len).wsServiceCounter = s.wsServiceCounter := by
  rw [checkLen]
  split_ifs <;> exact ⟨rfl, rfl, rfl, rfl⟩

theorem afterBatch_same (s : MainLoop) (msgCount : ℕ) (len : ℤ) :
    (s.afterBatch msgCount len).ipc = s.ipc ∧ (s.afterBatch msgCount len).ws = s.ws ∧
      (s.afterBatch msgCount len).wsServiceCounter = s.wsServiceCounter ∧
      ((msgCount = 0 ∧ (s.afterBatch msgCount len).point = .counter) ∨
        (s.afterBatch msgCount len).point = .batchService len) := by
  obtain ⟨hipc, hws, hpoint, hcounter⟩ := s.checkLen_same len
  rw [afterBatch]
  split_ifs with hcount
  · exact ⟨rfl, rfl, rfl, .inr rfl⟩
  · exact ⟨hipc, hws, hcounter, .inl ⟨Nat.eq_zero_of_not_pos hcount, hpoint⟩⟩

/-- One turn over a batch forwards what was read, or nothing was read and the batch is over. -/
theorem recvMessage_cases (s : MainLoop) (left msgCount : ℕ)
    (recv : (space : ℕ) → RecvResult space) (outside : ℕ → UInt8) :
    (s.recvMessage left msgCount recv outside).ipc = s.ipc.call recv outside ∧
      (s.recvMessage left msgCount recv outside).wsServiceCounter = s.wsServiceCounter ∧
      (((s.ipc.call recv outside).returned = s.ipc.returned ∧
          (s.recvMessage left msgCount recv outside).ws = s.ws ∧
          ((msgCount = 0 ∧ (s.recvMessage left msgCount recv outside).point = .counter) ∨
            ∃ len, (s.recvMessage left msgCount recv outside).point = .batchService len)) ∨
        ∃ line, (s.ipc.call recv outside).returned = s.ipc.returned ++ [line] ∧
          (s.recvMessage left msgCount recv outside).ws = (s.ws.forwardDetection line).2 ∧
          ((left = 0 ∧
              ∃ len, (s.recvMessage left msgCount recv outside).point = .batchService len) ∨
            ∃ left', left = left' + 1 ∧
              (s.recvMessage left msgCount recv outside).point = .batch left' (msgCount + 1))) := by
  rw [recvMessage]
  by_cases hvalue : 0 < (ipcRecvMessage s.ipc.conn maxMsgSize recv outside).value
  · have hreturned : (s.ipc.call recv outside).returned = s.ipc.returned ++
        [(ipcRecvMessage s.ipc.conn maxMsgSize recv outside).message] := by
      rw [Session.call, if_pos hvalue]
    simp only [if_pos hvalue]
    cases left with
    | zero =>
      refine ⟨rfl, rfl, .inr ⟨_, hreturned, rfl, .inl
        ⟨rfl, (ipcRecvMessage s.ipc.conn maxMsgSize recv outside).value, ?_⟩⟩⟩
      exact congrArg MainLoop.point (if_pos (Nat.succ_pos msgCount))
    | succ left => exact ⟨rfl, rfl, .inr ⟨_, hreturned, rfl, .inr ⟨left, rfl, rfl⟩⟩⟩
  · have hreturned : (s.ipc.call recv outside).returned = s.ipc.returned := by
      rw [Session.call, if_neg hvalue, List.append_nil]
    simp only [if_neg hvalue]
    obtain ⟨hipc, hws, hcounter, hpoint⟩ := afterBatch_same
      { s with ipc := s.ipc.call recv outside } msgCount
      (ipcRecvMessage s.ipc.conn maxMsgSize recv outside).value
    exact ⟨hipc, hcounter, .inl ⟨hreturned, hws, hpoint.imp id fun h => ⟨_, h⟩⟩⟩

theorem tick_cases (s : MainLoop) (t now : UInt64) (snap : Option Ddl.DDLFrame) :
    (s.tick t now snap).ipc = s.ipc ∧ (s.tick t now snap).point = .start ∧
      (s.tick t now snap).wsServiceCounter = s.wsServiceCounter ∧
      ((s.tick t now snap).ws = s.ws ∨ ∃ f ∈ snap,
        (s.tick t now snap).ws = (s.ws.queueMessage (buildJson f now)).2) := by
  refine ⟨rfl, rfl, rfl, ?_⟩
  rw [tick]
  cases hjson : (ddlBridgeTick s.bridge s.ws.server.clientConnected t now snap).2 with
  | none => exact .inl rfl
  | some json =>
    rw [ddlBridgeTick] at hjson
    split_ifs at hjson
    obtain ⟨f, hf, htext⟩ := Option.bind_eq_some_iff.mp hjson
    dsimp only at htext
    split_ifs at htext
    obtain rfl := Option.some.inj htext
    exact .inr ⟨f, hf, rfl⟩

/-- What a step does to the connection and to the server. -/
theorem step_cases {op : LoopOp} (h : Step config lwsPre s op t) :
    (t.ipc = s.ipc ∧ t.ws = s.ws) ∨
    (∃ recv outside, (∃ left msgCount, s.point = .batch left msgCount) ∧
      t.ipc = s.ipc.call recv outside ∧
      ((∀ space, Ipc.Serves s.ipc.unread space (recv space)) ∨ s.ipc.conn.hangsUp recv) ∧
      ((t.ipc.returned = s.ipc.returned ∧ t.ws = s.ws) ∨
        ∃ line, t.ipc.returned = s.ipc.returned ++ [line] ∧
          t.ws = (s.ws.forwardDetection line).2)) ∨
    (∃ ev, op = .callback ev ∧ t.ipc = s.ipc ∧ WebSocket.Service.Step lwsPre s.ws ev t.ws ∧
      (∀ json, ev ≠ .enqueue json) ∧
      ∀ wsi ready, ev = .established wsi ready → ∀ text ∈ ready, text = readyMsg config) ∨
    ∃ f now, (∃ mono snap, op = .tick mono now snap ∧ f ∈ snap) ∧ s.point = .tick ∧
      t.ipc = s.ipc ∧ f.InRange ∧ now.toNat < 2 ^ 63 ∧
      t.ws = (s.ws.queueMessage (buildJson f now)).2 := by
  obtain ⟨hallowed, happly⟩ := h
  cases op with
  | check =>
    simp only [apply] at happly
    split at happly
    · split_ifs at happly <;> exact .inl (Option.some.inj happly ▸ ⟨rfl, rfl⟩)
    · cases happly
  | recvMessage recv outside =>
    simp only [apply] at happly
    split at happly
    · next left msgCount hpoint =>
      obtain rfl := Option.some.inj happly
      obtain ⟨hipc, -, hread⟩ := s.recvMessage_cases left msgCount recv outside
      refine .inr (.inl ⟨recv, outside, ⟨left, msgCount, hpoint⟩, hipc, hallowed, ?_⟩)
      rw [hipc]
      rcases hread with ⟨hreturned, hws, -⟩ | ⟨line, hreturned, hws, -⟩
      · exact .inl ⟨hreturned, hws⟩
      · exact .inr ⟨line, hreturned, hws⟩
    · cases happly
  | callback ev =>
    obtain ⟨henabled, hev, hready⟩ := hallowed
    simp only [apply] at happly
    split at happly
    · obtain rfl := Option.some.inj happly
      exact .inr (.inr (.inl ⟨ev, rfl, rfl, ⟨henabled, rfl⟩, hev, hready⟩))
    · obtain rfl := Option.some.inj happly
      exact .inr (.inr (.inl ⟨ev, rfl, rfl, ⟨henabled, rfl⟩, hev, hready⟩))
    · cases happly
  | serviced =>
    simp only [apply] at happly
    split at happly
    · next len _ =>
      obtain rfl := Option.some.inj happly
      exact .inl ⟨(s.checkLen_same len).1, (s.checkLen_same len).2.1⟩
    · exact .inl (Option.some.inj happly ▸ ⟨rfl, rfl⟩)
    · cases happly
  | count =>
    simp only [apply] at happly
    split at happly
    · exact .inl (Option.some.inj happly ▸ ⟨rfl, rfl⟩)
    · cases happly
  | tick mono now snap =>
    obtain ⟨hnow, hrange⟩ := hallowed
    simp only [apply] at happly
    split at happly
    · next hpoint =>
      obtain rfl := Option.some.inj happly
      obtain ⟨hipc, -, -, hws⟩ := s.tick_cases mono now snap
      rcases hws with hsame | ⟨f, hf, hws⟩
      · exact .inl ⟨hipc, hsame⟩
      · exact .inr (.inr (.inr ⟨f, now, ⟨mono, snap, rfl, hf⟩, hpoint, hipc, hrange f hf, hnow,
          hws⟩))
    · cases happly

/-! ## The invariant -/

variable {offers : List Offer}

/-- What is or was on its way to the phone was offered, in this order, and the detections among it
were read from the detector. -/
structure Forwards (config : StreamingConfig) (lwsPre : ℕ) (lines : List (List UInt8))
    (s : MainLoop) (offers : List Offer) : Prop where
  relays : Relays lines s.ipc
  consistent : s.ws.Consistent lwsPre
  attached : s.ws.Attached
  flow : s.ws.flow <+ offers.map (Offer.bytes config)
  read : offers.filterMap Offer.line <+ s.ipc.returned
  genuine : ∀ o ∈ offers, o.Genuine lines

theorem init_forwards {conn : Ipc.IPCConnection} {fd : ℕ} (bridge : TickingBridge)
    (haccept : (Ipc.ipcAcceptClient conn (some fd) true).1 = 0) :
    Forwards config lwsPre lines (init conn fd bridge lines) [] where
  relays := .inl ⟨[], lines, Session.start_holds lines haccept⟩
  consistent := Service.init_consistent
  attached := Service.init_attached
  flow := List.Sublist.refl []
  read := List.Sublist.refl []
  genuine := by simp

theorem forwardDetection_cases (ws : Service) (line : List UInt8) :
    (ws.forwardDetection line).2 = ws ∨
      (ws.forwardDetection line).2 = (ws.queueMessage line).2 := by
  rw [Service.forwardDetection]
  split_ifs
  · exact .inr rfl
  · exact .inl rfl

theorem mem_offered {o o' : Offer} (hoffers : ∀ o ∈ offers, o.Genuine lines)
    (ho : o.Genuine lines) (ho' : o' ∈ offers ++ [o]) : o'.Genuine lines := by
  rcases List.mem_append.mp ho' with hold | hnew
  · exact hoffers o' hold
  · rw [List.mem_singleton.mp hnew]
    exact ho

/-- A message is offered that is none of the detector. -/
theorem Forwards.offer (h : Forwards config lwsPre lines s offers) {o : Offer}
    (hipc : t.ipc = s.ipc) (hconsistent : t.ws.Consistent lwsPre) (hattached : t.ws.Attached)
    (hflow : t.ws.flow <+ s.ws.flow ++ [o.bytes config]) (hline : o.line = none)
    (hgenuine : o.Genuine lines) : Forwards config lwsPre lines t (offers ++ [o]) where
  relays := hipc ▸ h.relays
  consistent := hconsistent
  attached := hattached
  flow := by
    rw [List.map_append]
    exact hflow.trans (h.flow.append (List.Sublist.refl _))
  read := by
    rw [hipc, List.filterMap_append, List.filterMap_cons_none hline, List.filterMap_nil,
      List.append_nil]
    exact h.read
  genuine _ ho := mem_offered h.genuine hgenuine ho

/-- A message of the detector is forwarded if a client is there. -/
theorem Forwards.forward (h : Forwards config lwsPre lines s offers) (hrelays : Relays lines t.ipc)
    {line : List UInt8} (hread : t.ipc.returned = s.ipc.returned ++ [line]) (hline : line ∈ lines)
    (hws : t.ws = (s.ws.forwardDetection line).2) :
    Forwards config lwsPre lines t (offers ++ [.detections line]) := by
  have hread' : (offers ++ [Offer.detections line]).filterMap Offer.line <+ t.ipc.returned := by
    rw [hread, List.filterMap_append]
    exact h.read.append (List.Sublist.refl _)
  have hgenuine : ∀ o ∈ offers ++ [Offer.detections line], o.Genuine lines :=
    fun o ho => mem_offered (o := .detections line) h.genuine hline ho
  rcases forwardDetection_cases s.ws line with hsame | hqueued
  · rw [hsame] at hws
    refine ⟨hrelays, hws ▸ h.consistent, hws ▸ h.attached, ?_, hread', hgenuine⟩
    rw [hws, List.map_append]
    exact h.flow.trans (List.sublist_append_left _ _)
  · rw [hqueued] at hws
    refine ⟨hrelays, hws ▸ Service.queueMessage_consistent h.consistent line,
      hws ▸ Service.queueMessage_attached h.attached line, ?_, hread', hgenuine⟩
    rw [hws, List.map_append]
    exact (Service.queueMessage_flow line).trans (h.flow.append (List.Sublist.refl _))

/-- What a step offers: a snapshot only in a tick, of the frame that it finds. -/
def Brings (op : LoopOp) (o : Offer) : Prop :=
  ∀ f now, o = .snapshot f now → ∃ mono snap, op = .tick mono now snap ∧ f ∈ snap

theorem step_forwards (hlines : ∀ m ∈ lines, Ipc.lf ∉ m ∧ 0 < m.length ∧ m.length < maxMsgSize)
    (h : Forwards config lwsPre lines s offers) {op : LoopOp} (hstep : Step config lwsPre s op t) :
    Forwards config lwsPre lines t offers ∨
      ∃ o, Forwards config lwsPre lines t (offers ++ [o]) ∧ Brings op o := by
  rcases step_cases hstep with ⟨hipc, hws⟩ | ⟨recv, outside, -, hipc, hrecv, hread⟩ |
    ⟨ev, -, hipc, hcallback, hev, hready⟩ | ⟨f, now, htick, -, hipc, hrange, hnow, hws⟩
  · exact .inl ⟨hipc ▸ h.relays, hws ▸ h.consistent, hws ▸ h.attached, hws ▸ h.flow,
      hipc ▸ h.read, h.genuine⟩
  · have hrelays : Relays lines t.ipc := hipc ▸ relays_call hlines h.relays hrecv
    rcases hread with ⟨hreturned, hws⟩ | ⟨line, hreturned, hws⟩
    · exact .inl ⟨hrelays, hws ▸ h.consistent, hws ▸ h.attached, hws ▸ h.flow,
        hreturned ▸ h.read, h.genuine⟩
    · have hbegins := hrelays.returned fun m hm => (hlines m hm).2.1
      have hline : line ∈ lines := by
        refine hbegins.subset ?_
        rw [hreturned]
        exact List.mem_append_right _ (List.mem_singleton_self line)
      exact .inr ⟨_, h.forward hrelays hreturned hline hws, fun _ _ h => nomatch h⟩
  · have hconsistent := Service.step_consistent h.consistent hcallback
    have hattached := Service.step_attached h.attached hcallback
    have hflow := Service.step_flow h.consistent hcallback
    have hoffered : Service.offered ev = [] ∨ Service.offered ev = [readyMsg config] := by
      cases ev with
      | established wsi ready =>
        cases ready with
        | none => exact .inl rfl
        | some text => exact .inr (by rw [← hready wsi (some text) rfl text rfl]; rfl)
      | closed wsi => exact .inl rfl
      | serverWriteable wsi => exact .inl rfl
      | enqueue json => exact absurd rfl (hev json)
    rcases hoffered with hnone | hsome
    · rw [hnone, List.append_nil] at hflow
      exact .inl ⟨hipc ▸ h.relays, hconsistent, hattached, hflow.trans h.flow, hipc ▸ h.read,
        h.genuine⟩
    · rw [hsome] at hflow
      exact .inr ⟨.ready, h.offer hipc hconsistent hattached hflow rfl trivial,
        fun _ _ h => nomatch h⟩
  · refine .inr ⟨.snapshot f now, h.offer hipc
      (hws ▸ Service.queueMessage_consistent h.consistent _)
      (hws ▸ Service.queueMessage_attached h.attached _) (hws ▸ Service.queueMessage_flow _) rfl
      ⟨hrange, hnow⟩, ?_⟩
    rintro _ _ ⟨rfl, rfl⟩
    exact htick

/-- What a run forwards beyond what was offered before comes from its own steps. -/
theorem run_brings (hlines : ∀ m ∈ lines, Ipc.lf ∉ m ∧ 0 < m.length ∧ m.length < maxMsgSize)
    (h : Forwards config lwsPre lines s offers) {ops : List LoopOp}
    (hrun : Run (Step config lwsPre) s ops t) :
    ∃ new, Forwards config lwsPre lines t (offers ++ new) ∧ ∀ o ∈ new, ∃ op ∈ ops, Brings op o := by
  induction hrun with
  | nil => exact ⟨[], by rwa [List.append_nil], fun o ho => absurd ho List.not_mem_nil⟩
  | @snoc ops t op u _ hstep ih =>
    obtain ⟨new, ht, hnew⟩ := ih
    have hold : ∀ o ∈ new, ∃ op' ∈ ops ++ [op], Brings op' o := by
      intro o ho
      obtain ⟨op', hop', hbrings⟩ := hnew o ho
      exact ⟨op', List.mem_append_left _ hop', hbrings⟩
    rcases step_forwards hlines ht hstep with hu | ⟨o, hu, hbrings⟩
    · exact ⟨new, hu, hold⟩
    · refine ⟨new ++ [o], by rwa [← List.append_assoc], fun o' ho' => ?_⟩
      rcases List.mem_append.mp ho' with ho' | ho'
      · exact hold o' ho'
      · rw [List.mem_singleton.mp ho']
        exact ⟨op, List.mem_append_right _ (List.mem_singleton_self op), hbrings⟩

theorem run_forwards (hlines : ∀ m ∈ lines, Ipc.lf ∉ m ∧ 0 < m.length ∧ m.length < maxMsgSize)
    (h : ∃ offers, Forwards config lwsPre lines s offers) {ops : List LoopOp}
    (hrun : Run (Step config lwsPre) s ops t) :
    ∃ offers, Forwards config lwsPre lines t offers := by
  obtain ⟨offers, hs⟩ := h
  obtain ⟨new, ht, -⟩ := run_brings hlines hs hrun
  exact ⟨offers ++ new, ht⟩

/-! ## What the phone reads -/

/-- The detections of the detector in one call of `send_detection`, with their time. -/
abbrev Batch := ℤ × List (DetectionPayload ℚ)

def lineOf (b : Batch) : List UInt8 := sendDetection b.1 b.2

/-- The targets and the time that the phone has for a batch. -/
def receivedBatch (b : Batch) : List (DetectedTarget ℚ) × ℤ := (b.2.map (receivedTarget b.1), b.1)

/-- The targets and the time, if the phone takes a message for detections. -/
def readBatch (now : ℤ) (bytes : List UInt8) : Option (List (DetectedTarget ℚ) × ℤ) :=
  (onMessage now bytes).bind fun
    | .targetDetection targets timestampMs => some (targets, timestampMs)
    | _ => none

variable {sent : List Batch} {name : List Char}

/-- What the messages of this program are for the phone. -/
def Meant (config : StreamingConfig) (name : List Char) (sent : List Batch) : Received → Prop
  | .targetDetection targets timestampMs =>
    ∃ b ∈ sent, timestampMs = b.1 ∧ List.Forall₂ (Bridge.Mirrors b.1) b.2 targets
  | .sensorData data => ∃ f now, f.InRange ∧ now.toNat < 2 ^ 63 ∧ data = Bridge.received f now
  | .streamReady port stream => port = some config.rtspPort ∧ stream = some (String.ofList name)
  | _ => False

theorem isBox_of_inside {b : Detector.Bbox} (h : b.Inside 1920 1080) : Bridge.IsBox b := by
  obtain ⟨hx, hy, hwidth, hheight, hright, hbottom⟩ := h
  refine ⟨?_, ?_, ?_, ?_⟩ <;> constructor <;> omega

theorem onMessage_line {b : Batch} (hfits : Fits b.1 b.2) (now : ℤ) :
    onMessage now (lineOf b) = some (.targetDetection (receivedBatch b).1 (receivedBatch b).2) := by
  obtain ⟨hmin, hmax⟩ := hfits.timestamp
  rw [onMessage, lineOf, sendDetection, Detector.sendRaw, Utf8.decode_encode, Option.bind_some,
    Bridge.handle_detectionMessage (abs_lt.mpr ⟨by omega, by omega⟩) fun d hd =>
      isBox_of_inside (hfits.box d hd)]
  rfl

theorem receivedBatch_mirrors {b : Batch} (hfits : Fits b.1 b.2) :
    List.Forall₂ (Bridge.Mirrors b.1) b.2 (receivedBatch b).1 := by
  rw [receivedBatch, List.forall₂_map_right_iff, List.forall₂_same]
  exact fun d hd => Bridge.receivedTarget_mirrors b.1 (isBox_of_inside (hfits.box d hd))

theorem onMessage_snapshot (f : Ddl.DDLFrame) {time : UInt64} (htime : time.toNat < 2 ^ 63)
    (now : ℤ) :
    onMessage now (buildJson f time) = some (.sensorData (Bridge.received f time)) := by
  rw [onMessage, buildJson, Utf8.decode_encode, Option.bind_some, Bridge.handle_snapshot f htime]

theorem lineOf_fits (hfits : ∀ b ∈ sent, Fits b.1 b.2) :
    ∀ m ∈ sent.map lineOf, Ipc.lf ∉ m ∧ 0 < m.length ∧ m.length < maxMsgSize := by
  intro m hm
  obtain ⟨b, hb, rfl⟩ := List.mem_map.mp hm
  obtain ⟨hpos, hlen⟩ := Detector.length_sendDetection (hfits b hb)
  exact ⟨(Detector.sendRaw_line (Detector.dumpable_detectionMessage b.1 b.2)).1, hpos,
    hlen.trans_lt (by decide)⟩

/-- A message that was offered is short, and the phone knows what it is. -/
theorem Offer.Genuine.meant (hconfig : ReadyConfig config name) (hfits : ∀ b ∈ sent, Fits b.1 b.2)
    {o : Offer} (ho : o.Genuine (sent.map lineOf)) (now : ℤ) :
    (o.bytes config).length ≤ 4051 ∧
      (∃ r, onMessage now (o.bytes config) = some r ∧ Meant config name sent r) ∧
      readBatch now (o.bytes config) = o.line.bind (readBatch now) := by
  cases o with
  | detections line =>
    obtain ⟨b, hb, rfl⟩ := List.mem_map.mp ho
    exact ⟨(Detector.length_sendDetection (hfits b hb)).2,
      ⟨_, onMessage_line (hfits b hb) now, b, hb, rfl, receivedBatch_mirrors (hfits b hb)⟩, rfl⟩
  | snapshot f time =>
    have hlen : (buildJson f time).length < 1024 := (Bridge.length_buildJson ho.1 time).2
    have hread := onMessage_snapshot f ho.2 now
    refine ⟨hlen.le.trans (by decide), ⟨_, hread, f, time, ho.1, ho.2, rfl⟩, ?_⟩
    rw [readBatch, Offer.bytes, hread]
    rfl
  | ready =>
    have hlen : (readyMsg config).length ≤ 255 := List.length_take_le _ _
    have hread := Bridge.handle_ready hconfig now
    refine ⟨hlen.trans (by decide), ⟨_, hread, rfl, rfl⟩, ?_⟩
    rw [readBatch, Offer.bytes, hread]
    rfl

theorem filterMap_readBatch (hconfig : ReadyConfig config name) (hfits : ∀ b ∈ sent, Fits b.1 b.2)
    (hoffers : ∀ o ∈ offers, o.Genuine (sent.map lineOf)) (now : ℤ) :
    (offers.map (Offer.bytes config)).filterMap (readBatch now) =
      (offers.filterMap Offer.line).filterMap (readBatch now) := by
  rw [List.filterMap_map, List.filterMap_filterMap]
  exact List.filterMap_congr fun o ho => ((hoffers o ho).meant hconfig hfits now).2.2

theorem filterMap_lineOf (hfits : ∀ b ∈ sent, Fits b.1 b.2) (now : ℤ) :
    (sent.map lineOf).filterMap (readBatch now) = sent.map receivedBatch := by
  rw [List.filterMap_map, ← List.filterMap_eq_map]
  refine List.filterMap_congr fun b hb => ?_
  rw [Function.comp_apply, readBatch, onMessage_line (hfits b hb) now]
  rfl

/-- All that is written is what was offered, uncut. -/
theorem Forwards.written_whole (h : Forwards config lwsPre (sent.map lineOf) s offers)
    (hconfig : ReadyConfig config name) (hfits : ∀ b ∈ sent, Fits b.1 b.2) (hpre : lwsPre ≤ 45)
    {w : WebSocket.Write} (hw : w ∈ s.ws.written) :
    w.bytes = w.message.data ∧ ∃ o ∈ offers, o.bytes config = w.message.data := by
  have hmem : w.message.data ∈ s.ws.flow :=
    List.mem_append_left _ (List.mem_map.mpr ⟨w, hw, rfl⟩)
  obtain ⟨o, ho, hbytes⟩ := List.mem_map.mp (h.flow.subset hmem)
  refine ⟨?_, o, ho, hbytes⟩
  have hlen := ((h.genuine o ho).meant hconfig hfits 0).1
  have hmax : WebSocket.wsMaxMsgSize = 4096 := rfl
  rw [(h.consistent.cut w hw).2, Memory.sizeSub_of_le (by omega) (by rw [hmax]; decide), hmax]
  exact List.take_of_length_le (by rw [← hbytes]; omega)

/-- What phones read of the detections is among what the detector sent. -/
theorem Forwards.read_sublist (h : Forwards config lwsPre (sent.map lineOf) s offers)
    (hconfig : ReadyConfig config name) (hfits : ∀ b ∈ sent, Fits b.1 b.2) (hpre : lwsPre ≤ 45)
    (now : ℤ) :
    (s.ws.written.filterMap fun w => readBatch now w.bytes) <+ sent.map receivedBatch := by
  have hwritten : (s.ws.written.filterMap fun w => readBatch now w.bytes) =
      (s.ws.written.map (·.message.data)).filterMap (readBatch now) := by
    rw [List.filterMap_map]
    refine List.filterMap_congr fun w hw => ?_
    rw [(h.written_whole hconfig hfits hpre hw).1]
    rfl
  have hreturned := h.relays.returned fun m hm => ((lineOf_fits hfits) m hm).2.1
  rw [hwritten, ← filterMap_lineOf hfits now]
  calc (s.ws.written.map (·.message.data)).filterMap (readBatch now)
      <+ s.ws.flow.filterMap (readBatch now) := (List.sublist_append_left _ _).filterMap _
    _ <+ (offers.map (Offer.bytes config)).filterMap (readBatch now) := h.flow.filterMap _
    _ = (offers.filterMap Offer.line).filterMap (readBatch now) :=
      filterMap_readBatch hconfig hfits h.genuine now
    _ <+ s.ipc.returned.filterMap (readBatch now) := h.read.filterMap _
    _ <+ (sent.map lineOf).filterMap (readBatch now) := hreturned.sublist.filterMap _

end MainLoop

open MainLoop

variable {config : StreamingConfig} {name : List Char} {lwsPre : ℕ} {conn : Ipc.IPCConnection}
  {fd : ℕ} {bridge : TickingBridge} {sent : List Batch} {ops : List LoopOp} {s : MainLoop}

/-- The detections that phones get are some of those that the detector sent, in the same order,
and none of them twice. -/
theorem detections_in_order (hconfig : ReadyConfig config name) (hpre : lwsPre ≤ 45)
    (hfits : ∀ b ∈ sent, Fits b.1 b.2)
    (haccept : (Ipc.ipcAcceptClient conn (some fd) true).1 = 0)
    (h : Run (Step config lwsPre) (init conn fd bridge (sent.map lineOf)) ops s) (now : ℤ) :
    (s.ws.written.filterMap fun w => readBatch now w.bytes) <+ sent.map receivedBatch := by
  obtain ⟨offers, hs⟩ := run_forwards (lineOf_fits hfits) ⟨[], init_forwards bridge haccept⟩ h
  exact hs.read_sublist hconfig hfits hpre now

/-! ## One client and one batch -/

namespace MainLoop

def resting (started : Bool) : TickingBridge := ⟨1000, 0, started⟩

/-- A bridge whose sensors were not started. -/
def quiet : TickingBridge := resting false

/-- The detector has sent one line that nobody has read in so many turns. -/
def waiting (started : Bool) (line : List UInt8) (turns : ℕ) : MainLoop :=
  { init (Ipc.ipcServerInit (some 3)).2 4 (resting started) [line] with wsServiceCounter := turns }

def idleTurn (mono : UInt64) : List LoopOp :=
  [.check, .recvMessage (fun _ => .again) fun _ => Ipc.nul, .count, .tick mono 0 none]

/-- If it is a tick, it finds no frame. -/
def Frameless : LoopOp → Prop
  | .tick _ _ snap => snap = none
  | _ => True

variable {started : Bool} {line : List UInt8} {turns : ℕ}

theorem idleTurns_frameless (mono : UInt64) (turns : ℕ) :
    ∀ op ∈ (List.replicate turns (idleTurn mono)).flatten, Frameless op := by
  intro op hop
  obtain ⟨turn, hturn, hop⟩ := List.mem_flatten.mp hop
  rw [(List.mem_replicate.mp hturn).2] at hop
  simp only [idleTurn, List.mem_cons, List.not_mem_nil, or_false] at hop
  rcases hop with rfl | rfl | rfl | rfl <;> trivial

theorem recvMessage_nothing {s : MainLoop} (hc : s.ipc.conn.clientFd ≠ none)
    (hempty : s.ipc.conn.content = []) (left msgCount : ℕ) :
    (s.ipc.call (fun _ => .again) fun _ => Ipc.nul) = s.ipc ∧
      s.recvMessage left msgCount (fun _ => .again) (fun _ => Ipc.nul) =
        s.afterBatch msgCount 0 := by
  have hinto : s.ipc.conn.recvInto (fun _ => .again) = s.ipc.conn := by
    rw [Ipc.IPCConnection.recvInto]
    split <;> rfl
  have hhanded : s.ipc.conn.handed (fun _ => .again) = [] := by
    rw [Ipc.IPCConnection.handed]
    split <;> rfl
  have hres : ipcRecvMessage s.ipc.conn maxMsgSize (fun _ => .again) (fun _ => Ipc.nul) =
      ⟨s.ipc.conn, 0, [], []⟩ := by
    rcases Ipc.ipcRecvMessage_cases s.ipc.conn maxMsgSize (fun _ => .again) (fun _ => Ipc.nul) hc
      with ⟨⟨-, hup | hup⟩, -⟩ | ⟨-, -, hres⟩ | ⟨-, k, -, hsome, -⟩
    · cases hup
    · cases hup
    · rw [hres, hinto]
    · rw [hinto, hempty] at hsome
      cases hsome
  have hcall : (s.ipc.call (fun _ => .again) fun _ => Ipc.nul) = s.ipc := by
    rw [Session.call, hres, hhanded, if_neg (lt_irrefl (0 : ℤ)), List.append_nil]
    rfl
  refine ⟨hcall, ?_⟩
  rw [recvMessage, hres, hcall]
  exact if_neg (lt_irrefl (0 : ℤ))

theorem count_step (config : StreamingConfig) (lwsPre : ℕ) {s : MainLoop}
    (hpoint : s.point = .counter) : Step config lwsPre s .count
      { s with
        wsServiceCounter := s.wsServiceCounter + 1
        point := if 10 ≤ s.wsServiceCounter + 1 then .counterService else .tick } := by
  refine ⟨trivial, ?_⟩
  simp only [apply, hpoint]

/-- A tick that finds no frame and that is too early or without effect on the bridge. -/
theorem tick_step (config : StreamingConfig) (lwsPre : ℕ) {s : MainLoop} {mono : UInt64}
    (hpoint : s.point = .tick)
    (hbridge : ddlBridgeTick s.bridge s.ws.server.clientConnected mono 0 none = (s.bridge, none)) :
    Step config lwsPre s (.tick mono 0 none) { s with point := .start } := by
  have hnow : (0 : UInt64).toNat < 2 ^ 63 := by
    rw [UInt64.toNat_zero]
    exact Nat.two_pow_pos 63
  refine ⟨⟨hnow, fun f hf => absurd hf (Option.not_mem_none f)⟩, ?_⟩
  simp only [apply, hpoint, tick, hbridge]

theorem resting_tick (started connected : Bool) :
    ddlBridgeTick (resting started) connected 0 0 none = (resting started, none) := by
  cases started <;> cases connected <;> rfl

theorem callback_step {config : StreamingConfig} {lwsPre : ℕ} {s : MainLoop} {ev : WebSocket.Event}
    (hpoint : s.point = .counterService ∨ ∃ len, s.point = .batchService len)
    (hallowed : s.Allowed config (.callback ev)) :
    Step config lwsPre s (.callback ev) { s with ws := s.ws.apply lwsPre ev } := by
  refine ⟨hallowed, ?_⟩
  rcases hpoint with hpoint | ⟨len, hpoint⟩ <;> simp only [apply, hpoint]

theorem idle_read (config : StreamingConfig) (lwsPre : ℕ) {s : MainLoop} (hpoint : s.point = .start)
    (hpython : s.pythonConnected = true) (hc : s.ipc.conn.clientFd ≠ none)
    (hempty : s.ipc.conn.content = []) {next : LoopPoint}
    (hnext : (if 10 ≤ s.wsServiceCounter + 1 then LoopPoint.counterService else .tick) = next) :
    Run (RoomyStep config lwsPre) s
      [.check, .recvMessage (fun _ => .again) fun _ => Ipc.nul, .count]
      { s with wsServiceCounter := s.wsServiceCounter + 1, point := next } := by
  have hcheck : Step config lwsPre s .check { s with point := .batch 9 0 } := by
    refine ⟨trivial, ?_⟩
    simp only [apply, hpoint, hpython, hc, ne_eq, not_false_eq_true, and_self, if_true, batchLimit]
  have hread : RoomyStep config lwsPre { s with point := .batch 9 0 }
      (.recvMessage (fun _ => .again) fun _ => Ipc.nul) { s with point := .counter } := by
    refine ⟨trivial, .inl fun _ => .again, congrArg some ?_⟩
    exact (recvMessage_nothing (s := { s with point := .batch 9 0 }) hc hempty 9 0).2
  have hcount : RoomyStep config lwsPre { s with point := .counter } .count
      { s with wsServiceCounter := s.wsServiceCounter + 1, point := next } :=
    ⟨trivial, hnext ▸ count_step (s := { s with point := .counter }) config lwsPre rfl⟩
  have hhead : Run (RoomyStep config lwsPre) s [.check] { s with point := .batch 9 0 } :=
    Run.single ⟨trivial, hcheck⟩
  exact (hhead.snoc hread).snoc hcount

/-- So many turns without a message, before the library is serviced. -/
theorem idle_run (config : StreamingConfig) (lwsPre : ℕ) {s : MainLoop} {mono : UInt64}
    (hpoint : s.point = .start) (hpython : s.pythonConnected = true)
    (hc : s.ipc.conn.clientFd ≠ none) (hempty : s.ipc.conn.content = [])
    (hbridge : ddlBridgeTick s.bridge s.ws.server.clientConnected mono 0 none = (s.bridge, none))
    (h : s.wsServiceCounter + turns ≤ 9) :
    Run (RoomyStep config lwsPre) s (List.replicate turns (idleTurn mono)).flatten
      { s with wsServiceCounter := s.wsServiceCounter + turns } := by
  induction turns with
  | zero => exact .nil
  | succ turns ih =>
    rw [List.replicate_succ', List.flatten_concat]
    have hread := idle_read (s := { s with wsServiceCounter := s.wsServiceCounter + turns }) config
      lwsPre hpoint hpython hc hempty (if_neg (show ¬ 10 ≤ s.wsServiceCounter + turns + 1 by omega))
    have htick : RoomyStep config lwsPre
        { s with wsServiceCounter := s.wsServiceCounter + turns + 1, point := .tick }
        (.tick mono 0 none)
        { s with wsServiceCounter := s.wsServiceCounter + turns + 1, point := .start } :=
      ⟨trivial, tick_step (s := { s with
        wsServiceCounter := s.wsServiceCounter + turns + 1, point := .tick }) config lwsPre rfl
          hbridge⟩
    rw [← hpoint] at htick
    exact (ih (by omega)).append (hread.snoc htick)

/-- A phone has connected and is told the stream. -/
def greeted (started : Bool) (config : StreamingConfig) (lwsPre : ℕ) (line : List UInt8) :
    MainLoop :=
  { waiting started line 0 with
    ws := Service.init.apply lwsPre (.established 0 (some (readyMsg config))) }

theorem callbacks_run {config : StreamingConfig} {lwsPre : ℕ} {s : MainLoop}
    (hpoint : s.point = .counterService ∨ ∃ len, s.point = .batchService len)
    {evs : List WebSocket.Event} (hevs : ∀ ev ∈ evs, ∃ wsi, ev = .serverWriteable wsi) {u : Service}
    (h : Run (Service.Step lwsPre) s.ws evs u) :
    Run (SteadyStep config lwsPre) s (evs.map .callback) { s with ws := u } := by
  induction h with
  | nil => exact .nil
  | @snoc evs u ev v _ hstep ih =>
    obtain ⟨henabled, rfl⟩ := hstep
    obtain ⟨wsi, rfl⟩ := hevs ev (List.mem_append_right _ (List.mem_singleton_self ev))
    rw [List.map_append]
    exact (ih fun ev hev => hevs ev (List.mem_append_left _ hev)).snoc
      ⟨⟨trivial, trivial⟩,
        callback_step (s := { s with ws := u }) hpoint ⟨henabled, nofun, nofun⟩⟩

variable {config : StreamingConfig}

theorem greeted_service (started : Bool) (lwsPre : ℕ) (line : List UInt8)
    (hready : (readyMsg config).length < WebSocket.wsMaxMsgSize) :
    (greeted started config lwsPre line).ws.Consistent lwsPre ∧
      (greeted started config lwsPre line).ws.server.clientWsi = some 0 ∧
      (greeted started config lwsPre line).ws.androidConnected = true ∧
      (greeted started config lwsPre line).ws.server.queue.count = 1 ∧
      (greeted started config lwsPre line).ws.phase 0 = .open ∧
      (greeted started config lwsPre line).ws.flow = [readyMsg config] := by
  obtain ⟨r, hr⟩ : ∃ r : Service, r = { Service.init.register 0 with androidConnected := true } :=
    ⟨_, rfl⟩
  have hconsistent : r.Consistent lwsPre := by
    rw [hr]
    exact (Service.register_consistent Service.init_consistent (.inl rfl)).congr rfl rfl rfl rfl
  have hclient : r.server.clientWsi = some 0 := by rw [hr]; rfl
  have hroom : r.server.queue.count < WebSocket.wsQueueSize := by rw [hr]; decide
  obtain ⟨haccept, hflow⟩ := Service.queueMessage_flow_eq hconsistent
    (by rw [hclient]; nofun) hroom hready
  have hws : (greeted started config lwsPre line).ws =
      { r.accept (readyMsg config) with
        phase := fun c => if c = 0 then .open else Service.init.phase c } := by
    rw [← haccept, hr]
    rfl
  have hall : (r.accept (readyMsg config)).Consistent lwsPre := by
    rw [← haccept]
    exact Service.queueMessage_consistent hconsistent _
  have hempty : r.flow = [] := by rw [hr]; rfl
  rw [hempty, List.nil_append] at hflow
  have hcount : (r.accept (readyMsg config)).server.queue.count = 1 := by
    rw [← hall.pending_length, Service.accept, if_neg hroom.ne, hr]
    rfl
  rw [hws]
  refine ⟨hall.congr rfl rfl rfl rfl, ?_, ?_, hcount, rfl, hflow⟩
  · exact (WebSocket.wsQueueMessage_client r.server _).1.trans hclient
  · rw [Service.accept, hr]

theorem greeted_run (started : Bool) (lwsPre : ℕ) (line : List UInt8)
    (hready : (readyMsg config).length < WebSocket.wsMaxMsgSize) :
    ∃ ops, (∀ op ∈ ops, Frameless op) ∧ Run (RoomyStep config lwsPre) (waiting started line 0) ops
      (greeted started config lwsPre line) := by
  have hten := idle_read (s := waiting started line 9) config lwsPre rfl rfl nofun rfl
    (if_pos (show 10 ≤ 9 + 1 by decide))
  have hallowed : Allowed config { waiting started line 10 with point := .counterService }
      (.callback (.established 0 (some (readyMsg config)))) := by
    refine ⟨rfl, nofun, ?_⟩
    rintro _ _ ⟨rfl, rfl⟩ text htext
    exact (Option.mem_some.mp htext).symm
  have hserviced : Step config lwsPre
      { greeted started config lwsPre line with wsServiceCounter := 10, point := .counterService }
      .serviced { greeted started config lwsPre line with point := .tick } := ⟨trivial, rfl⟩
  have hroom : LeavesRoom
      { greeted started config lwsPre line with wsServiceCounter := 10, point := .counterService }
      .serviced := by
    show (greeted started config lwsPre line).ws.server.queue.count + serviceGap ≤
      WebSocket.wsQueueSize
    rw [(greeted_service started lwsPre line hready).2.2.2.1]
    decide
  have hcallback : RoomyStep config lwsPre { waiting started line 10 with point := .counterService }
      (.callback (.established 0 (some (readyMsg config))))
      { greeted started config lwsPre line with
        wsServiceCounter := 10, point := .counterService } :=
    ⟨trivial, callback_step (.inl rfl) hallowed⟩
  have htick : RoomyStep config lwsPre { greeted started config lwsPre line with point := .tick }
      (.tick 0 0 none) (greeted started config lwsPre line) :=
    ⟨trivial, tick_step config lwsPre rfl (resting_tick started _)⟩
  have hnine := idle_run (s := waiting started line 0) config lwsPre rfl rfl nofun rfl
    (resting_tick started _) (show 0 + 9 ≤ 9 by decide)
  exact ⟨_, List.forall_mem_append.mpr ⟨idleTurns_frameless 0 9, by simp [Frameless]⟩,
    hnine.append (((hten.snoc hcallback).snoc ⟨hroom, hserviced⟩).snoc htick)⟩

/-- A message is queued for the phone, and the library writes it behind the announcement. -/
theorem flushed_run (started : Bool) (lwsPre : ℕ) (line : List UInt8)
    (hready : (readyMsg config).length < WebSocket.wsMaxMsgSize) {s : MainLoop}
    {json : List UInt8} (hjson : json.length < WebSocket.wsMaxMsgSize)
    (hws : s.ws = ((greeted started config lwsPre line).ws.queueMessage json).2)
    (hpoint : s.point = .counterService ∨ ∃ len, s.point = .batchService len) :
    ∃ ops t, (∀ op ∈ ops, Frameless op) ∧ Run (SteadyStep config lwsPre) s ops t ∧
      t.ws.written.map (·.message.data) = [readyMsg config, json] := by
  obtain ⟨hconsistent, hclient, -, hcount, hopen, hflow⟩ :=
    greeted_service started lwsPre line hready
  have hclient' : (greeted started config lwsPre line).ws.server.clientWsi ≠ none := by
    rw [hclient]
    nofun
  obtain ⟨haccept, hflow'⟩ := Service.queueMessage_flow_eq hconsistent hclient'
    (by rw [hcount]; decide) hjson
  rw [haccept] at hws
  have hall : s.ws.Consistent lwsPre := by
    rw [hws, ← haccept]
    exact Service.queueMessage_consistent hconsistent json
  have hopen' : s.ws.phase 0 = .open := by
    rw [hws]
    exact hopen
  obtain ⟨u, hflush, hwritten⟩ := Service.flush_run hall hopen'
    fun _ => by rw [hws, Service.accept, hclient]; rfl
  refine ⟨_, _, fun op hop => ?_,
    callbacks_run hpoint (fun ev hev => ⟨0, (List.mem_replicate.mp hev).2⟩) hflush, ?_⟩
  · obtain ⟨ev, -, rfl⟩ := List.mem_map.mp hop
    trivial
  · rw [hwritten, hws, hflow', hflow]
    rfl

/-- The line is read, forwarded and written to the phone. -/
theorem served_run (lwsPre : ℕ) (hline : Ipc.lf ∉ line ∧ Ipc.nul ∉ line ∧ 0 < line.length ∧
      line.length < maxMsgSize) (hready : (readyMsg config).length < WebSocket.wsMaxMsgSize) :
    ∃ ops s, Run (SteadyStep config lwsPre) (greeted false config lwsPre line) ops s ∧
      s.ws.written.map (·.message.data) = [readyMsg config, line] := by
  obtain ⟨hlf, hnul, hpos, hlen⟩ := hline
  have handroid := (greeted_service false lwsPre line hready).2.2.1
  have hsize : Ipc.recvBufferSize = 65536 := rfl
  have hmax : maxMsgSize = 4096 := rfl
  obtain ⟨hholds, hunread⟩ := Session.firstCall_holds line []
    (by simpa using ⟨hlf, hlen⟩) hnul (by simp only [LineStream.frame_cons, LineStream.frame_nil,
      List.length_append, List.length_cons, List.length_nil]; omega)
  have hcheck : SteadyStep config lwsPre (greeted false config lwsPre line) .check
      { greeted false config lwsPre line with point := .batch 9 0 } :=
    ⟨⟨trivial, trivial⟩, trivial, rfl⟩
  obtain ⟨t, ht⟩ : ∃ t, t = recvMessage
    { greeted false config lwsPre line with point := .batch 9 0 } 9 0
    (Ipc.deliver (LineStream.frame Ipc.lf [line])) fun _ => Ipc.nul := ⟨_, rfl⟩
  have hread : SteadyStep config lwsPre
      { greeted false config lwsPre line with point := .batch 9 0 }
      (.recvMessage (Ipc.deliver (LineStream.frame Ipc.lf [line])) fun _ => Ipc.nul) t := by
    refine ⟨⟨trivial, trivial⟩, .inl fun space => ?_, congrArg some ht.symm⟩
    show Ipc.Serves (LineStream.frame Ipc.lf [line]) space _
    simpa using Session.deliver_serves (LineStream.frame Ipc.lf [line])
      (LineStream.frame Ipc.lf [line]).length space
  obtain ⟨hipc, -, hcases⟩ := recvMessage_cases
    { greeted false config lwsPre line with point := .batch 9 0 } 9 0
    (Ipc.deliver (LineStream.frame Ipc.lf [line])) fun _ => Ipc.nul
  rw [← ht] at hipc hcases
  have hcall : t.ipc = Session.firstCall [line] := hipc
  have hreturned : (Session.firstCall [line]).returned = [line] := by
    rw [hholds.2.2.2]
    simpa using List.ne_nil_of_length_pos hpos
  -- the line was read, and the batch goes on
  obtain ⟨hws, hpoint⟩ : t.ws = ((greeted false config lwsPre line).ws.forwardDetection line).2 ∧
      t.point = .batch 8 1 := by
    rcases hcases with ⟨hsame, -⟩ | ⟨line', hreturned', hws, hpoint⟩
    · cases hreturned.symm.trans hsame
    · obtain rfl : line = line' := (List.cons.inj (hreturned.symm.trans hreturned')).1
      rcases hpoint with ⟨hzero, -⟩ | ⟨left, hleft, hpoint⟩
      · cases hzero
      · obtain rfl : 8 = left := Nat.succ.inj hleft
        exact ⟨hws, hpoint⟩
  have hcontent : (Session.firstCall [line]).conn.content = [] := by
    have hstream := hholds.2.2.1
    rwa [hunread, List.append_nil] at hstream
  have hagain : SteadyStep config lwsPre t (.recvMessage (fun _ => .again) fun _ => Ipc.nul)
      { t with point := .batchService 0 } := by
    refine ⟨⟨trivial, trivial⟩, .inl fun _ => .again, ?_⟩
    simp only [apply, hpoint]
    rw [(recvMessage_nothing (by rw [hcall]; exact hholds.1) (by rw [hcall]; exact hcontent)
      8 1).2]
    rfl
  rw [Service.forwardDetection, if_pos handroid] at hws
  obtain ⟨ops, u, -, hflush, hwritten⟩ := flushed_run (s := { t with point := .batchService 0 })
    false lwsPre line hready (show line.length < WebSocket.wsMaxMsgSize from hlen) hws
    (.inr ⟨0, rfl⟩)
  exact ⟨_, u, (((Run.single hcheck).snoc hread).snoc hagain).append hflush, hwritten⟩

def onePerson : List Batch := [(5000, [Bridge.person])]

theorem onePerson_fits : ∀ b ∈ onePerson, Fits b.1 b.2 := by
  intro b hb
  rw [List.mem_singleton.mp hb]
  refine ⟨by decide, ?_, ?_, ?_, ?_, by decide⟩ <;> intro d hd <;>
    rw [List.mem_singleton.mp hd]
  · refine ⟨by decide, fun c hc => ?_⟩
    rw [List.mem_singleton.mp (show c ∈ ['1'] from hc)]
    decide
  · rfl
  · exact ⟨by norm_num [Bridge.person], by norm_num [Bridge.person]⟩
  · exact ⟨by decide, by decide, by decide, by decide, by decide, by decide⟩

theorem configInitDefaults_ready : ReadyConfig Config.configInitDefaults "stream".toList :=
  ⟨by decide, by decide, by decide, by decide⟩

/-- A phone connects, the detector finds a person, and the phone gets both messages. -/
theorem onePerson_run : ∃ ops s ops' t, Run (RoomyStep Config.configInitDefaults 16)
    (init (Ipc.ipcServerInit (some 3)).2 4 quiet (onePerson.map lineOf)) ops s ∧
    s.ws.server.clientWsi ≠ none ∧ Run (SteadyStep Config.configInitDefaults 16) s ops' t ∧
    t.ws.written.map (·.message.data) =
      [readyMsg Config.configInitDefaults, lineOf (5000, [Bridge.person])] := by
  have hfits := onePerson_fits _ (List.mem_singleton_self _)
  obtain ⟨hlf, hnul⟩ := Detector.sendRaw_line
    (Detector.dumpable_detectionMessage 5000 [Bridge.person])
  obtain ⟨hpos, hlen⟩ := Detector.length_sendDetection hfits
  have hready : (readyMsg Config.configInitDefaults).length < WebSocket.wsMaxMsgSize :=
    (List.length_take_le 255 _).trans_lt (by decide)
  obtain ⟨ops, -, hgreeted⟩ := greeted_run false 16 (lineOf (5000, [Bridge.person])) hready
  obtain ⟨ops', t, hserved, hwritten⟩ :=
    served_run 16 ⟨hlf, hnul, hpos, hlen.trans_lt (by decide)⟩ hready
  refine ⟨ops, _, ops', t, hgreeted, ?_, hserved, hwritten⟩
  rw [(greeted_service false 16 _ hready).2.1]
  nofun

end MainLoop

theorem detections_in_order_onePerson : ∃ ops s, Run (Step Config.configInitDefaults 16)
    (init (Ipc.ipcServerInit (some 3)).2 4 quiet (onePerson.map lineOf)) ops s ∧
    s.ws.written.length = 2 ∧
    (s.ws.written.filterMap fun w => readBatch 0 w.bytes) <+ onePerson.map receivedBatch := by
  obtain ⟨ops, s, ops', t, hrun, -, hrun', hwritten⟩ := onePerson_run
  have hall := hrun.of_guarded.append hrun'.of_guarded
  refine ⟨_, t, hall, ?_, detections_in_order configInitDefaults_ready (by decide) onePerson_fits
    Session.accepted hall 0⟩
  simpa using congrArg List.length hwritten

end SnipeIt.Orchestrator
