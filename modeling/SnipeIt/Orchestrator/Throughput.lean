import SnipeIt.Orchestrator.MainLoop

/-! # Between two calls of `ws_service`

At most ten turns and one batch pass before the library is serviced again, so few
messages are added to the ring in between. As long as the library leaves room for
them, nothing is dropped.
-/

namespace SnipeIt.Orchestrator
open Support List
open Ipc (Session RecvResult maxMsgSize)
open WebSocket (Service wsQueueSize wsMaxMsgSize)
open Bridge (TickingBridge buildJson ReadyConfig)
open Config (StreamingConfig)
open Detector (Fits)
open Phone (onMessage)

namespace MainLoop

variable {config : StreamingConfig} {lwsPre : ℕ} {lines : List (List UInt8)} {s t : MainLoop}
  {offers : List Offer} {op : LoopOp}

/-- The messages that may have been added since `ws_service` returned. -/
def addedAt (wsServiceCounter : ℕ) : LoopPoint → ℕ
  | .start | .counter => wsServiceCounter + 1
  | .batch _ msgCount => wsServiceCounter + 1 + msgCount
  | .batchService _ | .counterService => serviceGap
  | .tick => wsServiceCounter

def added (s : MainLoop) : ℕ := addedAt s.wsServiceCounter s.point

/-- The counter and the batch are in their bounds, and so is the ring. -/
structure Filled (s : MainLoop) : Prop where
  counter : s.point = .counterService ∨ s.wsServiceCounter ≤ 9
  batch : ∀ left msgCount, s.point = .batch left msgCount → left + msgCount = 9
  count : s.ws.server.queue.count + serviceGap ≤ wsQueueSize + s.added

theorem init_filled (conn : Ipc.IPCConnection) (fd : ℕ) (bridge : TickingBridge)
    (lines : List (List UInt8)) : Filled (init conn fd bridge lines) :=
  ⟨.inr (Nat.zero_le 9), by rintro _ _ ⟨⟩,
    show 0 + serviceGap ≤ wsQueueSize + (0 + 1) by decide⟩

theorem added_of_point {point : LoopPoint} (h : s.point = point) :
    s.added = addedAt s.wsServiceCounter point := by
  rw [added, h]

theorem forwardDetection_room {ws : Service} (hroom : ws.server.queue.count < wsQueueSize)
    (line : List UInt8) :
    (ws.forwardDetection line).2.server.queueDropped = ws.server.queueDropped ∧
      (ws.forwardDetection line).2.server.queue.count ≤ ws.server.queue.count + 1 := by
  rcases forwardDetection_cases ws line with hsame | hqueued
  · rw [hsame]
    exact ⟨rfl, Nat.le_succ _⟩
  · rw [hqueued]
    exact Service.queueMessage_dropped hroom line

theorem recvMessage_filled (h : s.Filled) {left msgCount : ℕ}
    (hpoint : s.point = .batch left msgCount) (recv : (space : ℕ) → RecvResult space)
    (outside : ℕ → UInt8) :
    (s.recvMessage left msgCount recv outside).Filled ∧
      (s.recvMessage left msgCount recv outside).ws.server.queueDropped =
        s.ws.server.queueDropped := by
  have hgap : serviceGap = 20 := rfl
  have hbatch := h.batch left msgCount hpoint
  have hcounter : s.wsServiceCounter ≤ 9 := h.counter.resolve_left (by simp [hpoint])
  have hcount := h.count
  have hadded : s.added = s.wsServiceCounter + 1 + msgCount := added_of_point hpoint
  obtain ⟨-, hsame, hread⟩ := s.recvMessage_cases left msgCount recv outside
  generalize s.recvMessage left msgCount recv outside = t at hsame hread ⊢
  rcases hread with ⟨-, hws, hpoint'⟩ | ⟨line, -, hws, hpoint'⟩
  · refine ⟨⟨.inr (by omega), ?_, ?_⟩, by rw [hws]⟩
    · rcases hpoint' with ⟨-, heq⟩ | ⟨len, heq⟩ <;> simp [heq]
    · rw [hws]
      rcases hpoint' with ⟨hzero, heq⟩ | ⟨len, heq⟩
      · have hleft : t.added = t.wsServiceCounter + 1 := added_of_point heq
        omega
      · have hleft : t.added = serviceGap := added_of_point heq
        omega
  · have hsize : wsQueueSize = 256 := rfl
    have hspace : s.ws.server.queue.count < wsQueueSize := by omega
    obtain ⟨hdropped, hnext⟩ := forwardDetection_room hspace line
    rw [← hws] at hdropped hnext
    refine ⟨⟨.inr (by omega), ?_, ?_⟩, hdropped⟩
    · rcases hpoint' with ⟨-, len, heq⟩ | ⟨left', hleft, heq⟩ <;> rw [heq]
      · rintro _ _ ⟨⟩
      · rintro _ _ ⟨rfl, rfl⟩
        omega
    · rcases hpoint' with ⟨-, len, heq⟩ | ⟨left', hleft, heq⟩
      · have hleft : t.added = serviceGap := added_of_point heq
        omega
      · have hleft : t.added = t.wsServiceCounter + 1 + (msgCount + 1) := added_of_point heq
        omega

theorem check_filled (h : s.Filled) (happly : s.apply lwsPre .check = some t) :
    t.Filled ∧ t.ws.server.queueDropped = s.ws.server.queueDropped := by
  have hcount := h.count
  simp only [apply] at happly
  split at happly
  · next hpoint =>
    have hadded : s.added = s.wsServiceCounter + 1 := added_of_point hpoint
    have hcounter := h.counter.resolve_left (by simp [hpoint])
    rw [hadded] at hcount
    split_ifs at happly <;> obtain rfl := Option.some.inj happly
    · refine ⟨⟨.inr hcounter, ?_, hcount⟩, rfl⟩
      rintro _ _ ⟨rfl, rfl⟩
      rfl
    · exact ⟨⟨.inr hcounter, by rintro _ _ ⟨⟩, hcount⟩, rfl⟩
  · cases happly

/-- Callbacks come while the library is serviced, and what they add is below its limit. -/
theorem callback_filled (hconsistent : s.ws.Consistent lwsPre) (hattached : s.ws.Attached)
    (h : s.Filled) {ev : WebSocket.Event} (henabled : s.ws.Enabled ev)
    (hev : ∀ json, ev ≠ .enqueue json) (happly : s.apply lwsPre (.callback ev) = some t) :
    t.Filled ∧ t.ws.server.queueDropped = s.ws.server.queueDropped := by
  have hsize : wsQueueSize = 256 := rfl
  have hcount := h.count
  obtain ⟨hdropped, hcallback⟩ :=
    Service.callback_dropped hconsistent hattached hev ⟨henabled, rfl⟩
  have hservice (hadded : s.added = serviceGap) :
      Filled { s with ws := s.ws.apply lwsPre ev } := by
    refine ⟨h.counter, h.batch, ?_⟩
    change (s.ws.apply lwsPre ev).server.queue.count + serviceGap ≤ wsQueueSize + s.added
    omega
  simp only [apply] at happly
  split at happly
  · next len hpoint =>
    obtain rfl := Option.some.inj happly
    exact ⟨hservice (added_of_point hpoint), hdropped⟩
  · next hpoint =>
    obtain rfl := Option.some.inj happly
    exact ⟨hservice (added_of_point hpoint), hdropped⟩
  · cases happly

/-- What the library leaves free is all that the loop needs until it returns here. -/
theorem serviced_filled (h : s.Filled) (hroom : s.LeavesRoom .serviced)
    (happly : s.apply lwsPre .serviced = some t) :
    t.Filled ∧ t.ws.server.queueDropped = s.ws.server.queueDropped := by
  have hleft : s.ws.server.queue.count + serviceGap ≤ wsQueueSize := hroom
  simp only [apply] at happly
  split at happly
  · next len hpoint =>
    obtain rfl := Option.some.inj happly
    obtain ⟨-, hws, hpoint', hcounter'⟩ := s.checkLen_same len
    have hcounter := h.counter.resolve_left (by simp [hpoint])
    refine ⟨⟨.inr (by omega), by simp [hpoint'], ?_⟩, by rw [hws]⟩
    rw [hws]
    omega
  · obtain rfl := Option.some.inj happly
    exact ⟨⟨.inr (Nat.zero_le 9), by rintro _ _ ⟨⟩, hleft⟩, rfl⟩
  · cases happly

theorem count_filled (h : s.Filled) (happly : s.apply lwsPre .count = some t) :
    t.Filled ∧ t.ws.server.queueDropped = s.ws.server.queueDropped := by
  have hgap : serviceGap = 20 := rfl
  have hcount := h.count
  simp only [apply] at happly
  split at happly
  · next hpoint =>
    have hadded : s.added = s.wsServiceCounter + 1 := added_of_point hpoint
    have hcounter := h.counter.resolve_left (by simp [hpoint])
    by_cases hten : 10 ≤ s.wsServiceCounter + 1
    · rw [if_pos hten] at happly
      obtain rfl := Option.some.inj happly
      refine ⟨⟨.inl rfl, by rintro _ _ ⟨⟩, ?_⟩, rfl⟩
      change s.ws.server.queue.count + serviceGap ≤ wsQueueSize + serviceGap
      omega
    · rw [if_neg hten] at happly
      obtain rfl := Option.some.inj happly
      refine ⟨⟨.inr (show s.wsServiceCounter + 1 ≤ 9 by omega), by rintro _ _ ⟨⟩, ?_⟩, rfl⟩
      change s.ws.server.queue.count + serviceGap ≤ wsQueueSize + (s.wsServiceCounter + 1)
      omega
  · cases happly

/-- A tick adds one snapshot at most. -/
theorem tick_filled (h : s.Filled) (hpoint : s.point = .tick) (mono now : UInt64)
    (snap : Option Ddl.DDLFrame) :
    (s.tick mono now snap).Filled ∧
      (s.tick mono now snap).ws.server.queueDropped = s.ws.server.queueDropped := by
  have hgap : serviceGap = 20 := rfl
  have hcount := h.count
  have hadded : s.added = s.wsServiceCounter := added_of_point hpoint
  have hcounter := h.counter.resolve_left (by simp [hpoint])
  obtain ⟨-, hpoint', hcounter', hws⟩ := s.tick_cases mono now snap
  have hadded' : (s.tick mono now snap).added = (s.tick mono now snap).wsServiceCounter + 1 :=
    added_of_point hpoint'
  have hqueued : (s.tick mono now snap).ws.server.queueDropped = s.ws.server.queueDropped ∧
      (s.tick mono now snap).ws.server.queue.count ≤ s.ws.server.queue.count + 1 := by
    rcases hws with hsame | ⟨f, -, hws⟩
    · rw [hsame]
      exact ⟨rfl, Nat.le_succ _⟩
    · rw [hws]
      exact Service.queueMessage_dropped (by omega) _
  exact ⟨⟨.inr (by omega), by simp [hpoint'], by omega⟩, hqueued.1⟩

/-- Every step, if the library leaves room, and nothing is dropped. -/
theorem step_filled (hconsistent : s.ws.Consistent lwsPre) (hattached : s.ws.Attached)
    (h : s.Filled) (hstep : Step config lwsPre s op t) (hroom : s.LeavesRoom op) :
    t.Filled ∧ t.ws.server.queueDropped = s.ws.server.queueDropped := by
  obtain ⟨hallowed, happly⟩ := hstep
  cases op with
  | check => exact check_filled h happly
  | recvMessage recv outside =>
    simp only [apply] at happly
    split at happly
    · next left msgCount hpoint =>
      obtain rfl := Option.some.inj happly
      exact recvMessage_filled h hpoint recv outside
    · cases happly
  | callback ev => exact callback_filled hconsistent hattached h hallowed.1 hallowed.2.1 happly
  | serviced => exact serviced_filled h hroom happly
  | count => exact count_filled h happly
  | tick mono now snap =>
    simp only [apply] at happly
    split at happly
    · next hpoint =>
      obtain rfl := Option.some.inj happly
      exact tick_filled h hpoint mono now snap
    · cases happly

/-- The server's own invariants do not ask what is sent. -/
theorem step_session (hconsistent : s.ws.Consistent lwsPre) (hattached : s.ws.Attached)
    (hstep : Step config lwsPre s op t) : t.ws.Consistent lwsPre ∧ t.ws.Attached := by
  have hqueue (json : List UInt8) : (s.ws.queueMessage json).2.Consistent lwsPre ∧
      (s.ws.queueMessage json).2.Attached :=
    ⟨Service.queueMessage_consistent hconsistent json, Service.queueMessage_attached hattached json⟩
  rcases step_cases hstep with ⟨-, hws⟩ | ⟨recv, outside, -, -, -, hread⟩ |
    ⟨ev, -, -, hcallback, -⟩ | ⟨f, now, -, -, -, -, -, hws⟩
  · exact hws ▸ ⟨hconsistent, hattached⟩
  · rcases hread with ⟨-, hws⟩ | ⟨line, -, hws⟩
    · exact hws ▸ ⟨hconsistent, hattached⟩
    · rw [hws]
      rcases forwardDetection_cases s.ws line with hsame | hqueued
      · rw [hsame]
        exact ⟨hconsistent, hattached⟩
      · rw [hqueued]
        exact hqueue line
  · exact ⟨Service.step_consistent hconsistent hcallback, Service.step_attached hattached hcallback⟩
  · exact hws ▸ hqueue _

/-! ## Without losses -/

/-- The client is the same one, and what was read from the detector since then was added for it. -/
def Gains (config : StreamingConfig) (lines : List (List UInt8)) (s t : MainLoop) : Prop :=
  t.ws.server.clientWsi = s.ws.server.clientWsi ∧ ∃ new : List Offer,
    t.ws.flow = s.ws.flow ++ new.map (Offer.bytes config) ∧
    t.ipc.returned = s.ipc.returned ++ new.filterMap Offer.line ∧ ∀ o ∈ new, o.Genuine lines

theorem Gains.same (hclient : t.ws.server.clientWsi = s.ws.server.clientWsi)
    (hflow : t.ws.flow = s.ws.flow) (hread : t.ipc.returned = s.ipc.returned) :
    Gains config lines s t :=
  ⟨hclient, [], by simpa using hflow, by simpa using hread, by simp⟩

theorem Gains.trans {u : MainLoop} (h : Gains config lines s t) (h' : Gains config lines t u) :
    Gains config lines s u := by
  obtain ⟨hclient, new, hflow, hread, hgenuine⟩ := h
  obtain ⟨hclient', new', hflow', hread', hgenuine'⟩ := h'
  refine ⟨hclient'.trans hclient, new ++ new', ?_, ?_, ?_⟩
  · rw [hflow', hflow, List.map_append, List.append_assoc]
  · rw [hread', hread, List.filterMap_append, List.append_assoc]
  · intro o ho
    exact (List.mem_append.mp ho).elim (hgenuine o) (hgenuine' o)

/-- There is room in the ring wherever the loop adds a message. -/
theorem Filled.room (h : s.Filled)
    (hpoint : (∃ left msgCount, s.point = .batch left msgCount) ∨ s.point = .tick) :
    s.ws.server.queue.count < wsQueueSize := by
  have hgap : serviceGap = 20 := rfl
  have hcount := h.count
  rcases hpoint with ⟨left, msgCount, hpoint⟩ | hpoint
  · have hadded : s.added = s.wsServiceCounter + 1 + msgCount := added_of_point hpoint
    have hcounter := h.counter.resolve_left (by simp [hpoint])
    have hbatch := h.batch left msgCount hpoint
    omega
  · have hadded : s.added = s.wsServiceCounter := added_of_point hpoint
    have hcounter := h.counter.resolve_left (by simp [hpoint])
    omega

theorem Gains.offer (hs : s.ws.Consistent lwsPre) (hclient : s.ws.server.clientWsi ≠ none)
    (hroom : s.ws.server.queue.count < wsQueueSize) {o : Offer} (hgenuine : o.Genuine lines)
    (hfits : (o.bytes config).length < wsMaxMsgSize)
    (hread : t.ipc.returned = s.ipc.returned ++ o.line.toList)
    (hws : t.ws = (s.ws.queueMessage (o.bytes config)).2) : Gains config lines s t := by
  obtain ⟨haccept, hflow⟩ := Service.queueMessage_flow_eq hs hclient hroom hfits
  refine ⟨?_, [o], ?_, ?_, ?_⟩
  · rw [hws, haccept]
    exact (WebSocket.wsQueueMessage_client s.ws.server _).1
  · rw [hws, haccept, hflow]
    rfl
  · rw [hread]
    cases o <;> rfl
  · intro o' ho'
    rw [List.mem_singleton.mp ho']
    exact hgenuine

theorem step_gains (hlines : ∀ m ∈ lines, Ipc.lf ∉ m ∧ 0 < m.length ∧ m.length < maxMsgSize)
    (hs : Forwards config lwsPre lines s offers) (hfilled : s.Filled)
    (hclient : s.ws.server.clientWsi ≠ none) (hstep : Step config lwsPre s op t)
    (hkeeps : KeepsClient op) : Gains config lines s t := by
  rcases step_cases hstep with ⟨hipc, hws⟩ | ⟨recv, outside, hpoint, hipc, hrecv, hread⟩ |
    ⟨ev, rfl, hipc, ⟨-, hcallback⟩, -⟩ | ⟨f, now, -, hpoint, hipc, hrange, hnow, hws⟩
  · exact .same (by rw [hws]) (by rw [hws]) (by rw [hipc])
  · have hroom := hfilled.room (.inl hpoint)
    rcases hread with ⟨hreturned, hws⟩ | ⟨line, hreturned, hws⟩
    · exact .same (by rw [hws]) (by rw [hws]) hreturned
    · have hrelays : Relays lines t.ipc := hipc ▸ relays_call hlines hs.relays hrecv
      have hline : line ∈ lines := by
        refine (hrelays.returned fun m hm => (hlines m hm).2.1).subset ?_
        rw [hreturned]
        exact List.mem_append_right _ (List.mem_singleton_self line)
      have handroid : s.ws.androidConnected = true := by
        rw [hs.attached.android]
        exact hs.consistent.connected.mpr hclient
      rw [Service.forwardDetection, if_pos handroid] at hws
      exact .offer (o := .detections line) hs.consistent hclient hroom hline (hlines line hline).2.2
        hreturned hws
  · cases ev with
    | serverWriteable wsi =>
      have hws : t.ws = s.ws.serverWriteable lwsPre wsi := hcallback
      refine .same ?_ ?_ (by rw [hipc])
      · rw [hws, Service.serverWriteable]
        split_ifs <;> rfl
      · rw [hws, Service.serverWriteable_flow hs.consistent wsi]
    | established wsi ready => exact absurd hkeeps id
    | closed wsi => exact absurd hkeeps id
    | enqueue json => exact absurd hkeeps id
  · have hlen : (buildJson f now).length < 1024 := (Bridge.length_buildJson hrange now).2
    exact .offer (o := .snapshot f now) hs.consistent hclient (hfilled.room (.inr hpoint))
      ⟨hrange, hnow⟩ (hlen.trans (by decide)) (by rw [hipc]; exact (List.append_nil _).symm) hws

end MainLoop

open MainLoop

theorem run_filled {config : StreamingConfig} {lwsPre : ℕ} {ops : List LoopOp} {s t : MainLoop}
    (hs : s.ws.Consistent lwsPre ∧ s.ws.Attached) (hfilled : s.Filled)
    (h : Run (RoomyStep config lwsPre) s ops t) :
    t.Filled ∧ t.ws.server.queueDropped = s.ws.server.queueDropped := by
  have hall : (t.ws.Consistent lwsPre ∧ t.ws.Attached) ∧ t.Filled ∧
      t.ws.server.queueDropped = s.ws.server.queueDropped := by
    refine h.invariant (P := fun t => (t.ws.Consistent lwsPre ∧ t.ws.Attached) ∧ t.Filled ∧
      t.ws.server.queueDropped = s.ws.server.queueDropped) ⟨hs, hfilled, rfl⟩ ?_
    rintro t op u ⟨⟨hconsistent, hattached⟩, hfilled, hsame⟩ ⟨hroom, hstep⟩
    obtain ⟨hfilled', hdropped⟩ := step_filled hconsistent hattached hfilled hstep hroom
    exact ⟨step_session hconsistent hattached hstep, hfilled', hdropped.trans hsame⟩
  exact hall.2

/-- Whatever the detector sends and however clients come and go: if `ws_service` always leaves room
for twenty messages, the ring never drops one. -/
theorem nothing_dropped {config : StreamingConfig} {lwsPre : ℕ} {conn : Ipc.IPCConnection} {fd : ℕ}
    {bridge : TickingBridge} {lines : List (List UInt8)} {ops : List LoopOp} {s : MainLoop}
    (h : Run (RoomyStep config lwsPre) (init conn fd bridge lines) ops s) :
    s.ws.server.queueDropped = 0 :=
  (run_filled ⟨Service.init_consistent, Service.init_attached⟩ (init_filled conn fd bridge lines)
    h).2

/-- The run that serves one phone. -/
theorem nothing_dropped_onePerson : ∃ ops s, Run (RoomyStep Config.configInitDefaults 16)
    (init (Ipc.ipcServerInit (some 3)).2 4 quiet (onePerson.map lineOf)) ops s ∧
    s.ws.written.length = 2 ∧ s.ws.server.queueDropped = 0 := by
  obtain ⟨ops, s, ops', t, hrun, -, hrun', hwritten⟩ := onePerson_run
  have hall := hrun.append (hrun'.mono fun _ _ _ h => ⟨h.1.1, h.2⟩)
  exact ⟨_, t, hall, by simpa using congrArg List.length hwritten, nothing_dropped hall⟩

end SnipeIt.Orchestrator
