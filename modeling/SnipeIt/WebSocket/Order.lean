import SnipeIt.WebSocket.Delivery

/-! # The order of the messages

Whatever connections come and go, messages are written in the order in which they
were offered to the server, each of them once at most.
-/

namespace SnipeIt.WebSocket
open Support List

namespace Service

variable {lwsPre : ℕ} {s t : Service}

/-- The messages that were written and those that are still stored. -/
def flow (s : Service) : List (List UInt8) :=
  s.written.map (·.message.data) ++ s.pending.map (·.data)

/-- The messages that a step offers to `ws_queue_message`. -/
def offered : Event → List (List UInt8)
  | .established _ ready => ready.toList
  | .enqueue json => [json]
  | _ => []

theorem queueMessage_flow (json : List UInt8) :
    (s.queueMessage json).2.flow <+ s.flow ++ [json] := by
  rcases s.queueMessage_cases json with ⟨-, heq⟩ | ⟨-, heq⟩ <;> rw [heq]
  · have hkept : (if s.server.queue.count = wsQueueSize then s.pending.tail else s.pending) <+
        s.pending := by
      split_ifs
      · exact List.tail_sublist _
      · exact List.Sublist.refl _
    rw [flow, flow, accept, List.map_append, List.map_singleton, ← List.append_assoc]
    exact ((List.Sublist.refl _).append (hkept.map _)).append (List.Sublist.refl _)
  · exact List.sublist_append_left _ _

theorem detach_flow : s.detach.flow <+ s.flow := by
  rw [flow, flow, detach, List.map_nil, List.append_nil]
  exact List.sublist_append_left _ _

theorem onAndroidConnect_flow (ready : Option (List UInt8)) :
    (s.onAndroidConnect ready).flow <+ s.flow ++ ready.toList := by
  cases ready with
  | none =>
    rw [Option.toList_none, List.append_nil]
    exact List.Sublist.refl _
  | some text => exact queueMessage_flow (s := { s with androidConnected := true }) text

theorem established_flow (wsi : ℕ) (ready : Option (List UInt8)) :
    (s.established wsi ready).flow <+ s.flow ++ ready.toList := by
  refine (onAndroidConnect_flow ready).trans (List.Sublist.append ?_ (List.Sublist.refl _))
  split_ifs
  · exact detach_flow (s := s)
  · exact List.Sublist.refl s.flow

theorem closed_flow (wsi : ℕ) : (s.closed wsi).flow <+ s.flow := by
  rw [closed]
  split_ifs
  · exact detach_flow
  · exact List.Sublist.refl _

theorem serverWriteable_flow (h : s.Consistent lwsPre) (wsi : ℕ) :
    (s.serverWriteable lwsPre wsi).flow = s.flow := by
  rcases serverWriteable_cases h wsi with
    ⟨-, hwritten, hpending, -⟩ | ⟨m, rest, -, hsplit, -, -, hpending, -, hwritten⟩
  · rw [flow, hwritten, hpending, flow]
  · rw [flow, hwritten, hpending, flow, hsplit]
    simp

/-- A step takes messages away or writes the oldest one; what it offers comes last. -/
theorem step_flow (h : s.Consistent lwsPre) {ev : Event} (hstep : Step lwsPre s ev t) :
    t.flow <+ s.flow ++ offered ev := by
  obtain ⟨-, rfl⟩ := hstep
  cases ev with
  | established wsi ready => exact established_flow wsi ready
  | closed wsi =>
    change (s.closed wsi).flow <+ s.flow ++ []
    rw [List.append_nil]
    exact closed_flow wsi
  | serverWriteable wsi =>
    change (s.serverWriteable lwsPre wsi).flow <+ s.flow ++ []
    rw [List.append_nil, serverWriteable_flow h wsi]
  | enqueue json => exact queueMessage_flow json

/-! ## Without losses -/

theorem queueMessage_flow_eq (h : s.Consistent lwsPre) (hclient : s.server.clientWsi ≠ none)
    (hroom : s.server.queue.count < wsQueueSize) {json : List UInt8}
    (hfits : json.length < wsMaxMsgSize) :
    (s.queueMessage json).2 = s.accept json ∧ (s.accept json).flow = s.flow ++ [json] := by
  have hok : (wsQueueMessage s.server json).1 = 0 :=
    (wsQueueMessage_accepts_iff _ _).mpr ⟨h.connected.mpr hclient, hclient, hfits⟩
  refine ⟨if_pos hok, ?_⟩
  rw [flow, flow, accept, if_neg hroom.ne, List.map_append, List.map_singleton,
    ← List.append_assoc]

/-- The client gets all that waits for it if it may go on writing. -/
theorem flush_run (h : s.Consistent lwsPre) {wsi : ℕ} (hopen : s.phase wsi = .open)
    (hasked : s.pending ≠ [] → s.asked wsi = true) :
    ∃ t, Run (Step lwsPre) s (List.replicate s.pending.length (.serverWriteable wsi)) t ∧
      t.written.map (·.message.data) = s.flow := by
  generalize hn : s.pending.length = n
  induction n generalizing s with
  | zero =>
    refine ⟨s, Run.nil, ?_⟩
    rw [flow, List.length_eq_zero_iff.mp hn, List.map_nil, List.append_nil]
  | succ n ih =>
    have hpos : 0 < s.server.queue.count := by
      rw [← h.pending_length]
      omega
    have hstep : Step lwsPre s (.serverWriteable wsi) (s.serverWriteable lwsPre wsi) :=
      ⟨⟨hopen, hasked (List.ne_nil_of_length_pos (by omega))⟩, rfl⟩
    have hcount : (s.serverWriteable lwsPre wsi).pending = s.pending.tail ∧
        (s.serverWriteable lwsPre wsi).phase = s.phase ∧
        (s.serverWriteable lwsPre wsi).asked wsi =
          decide (0 < (s.serverWriteable lwsPre wsi).server.queue.count) := by
      rw [serverWriteable, dif_pos hpos]
      exact ⟨rfl, rfl, if_pos rfl⟩
    obtain ⟨hpending, hphase, hasks⟩ := hcount
    have hconsistent := serverWriteable_consistent h wsi
    obtain ⟨t, hrun, hwritten⟩ := ih hconsistent (hphase ▸ hopen)
      (fun hne => by
        rw [hasks, ← hconsistent.pending_length]
        exact decide_eq_true (List.length_pos_iff.mpr hne))
      (by rw [hpending, List.length_tail, hn, Nat.add_sub_cancel])
    exact ⟨t, hrun.cons hstep, hwritten.trans (serverWriteable_flow h wsi)⟩

/-- The user's flag agrees with the server, and the client was established. -/
structure Attached (s : Service) : Prop where
  android : s.androidConnected = s.server.clientConnected
  known : ∀ wsi, s.server.clientWsi = some wsi → s.phase wsi ≠ .fresh

theorem init_attached : Attached init := ⟨rfl, nofun⟩

theorem queueMessage_attached (h : s.Attached) (json : List UInt8) :
    (s.queueMessage json).2.Attached := by
  rcases s.queueMessage_cases json with ⟨-, heq⟩ | ⟨-, heq⟩ <;> rw [heq]
  · obtain ⟨hwsi, hconnected⟩ := wsQueueMessage_client s.server json
    refine ⟨?_, fun wsi hsome => h.known wsi ?_⟩
    · rw [accept, hconnected]
      exact h.android
    · rw [← hwsi]
      exact hsome
  · exact h

theorem detach_attached (s : Service) : s.detach.Attached := ⟨rfl, nofun⟩

theorem serverWriteable_attached (h : s.Attached) (wsi : ℕ) :
    (s.serverWriteable lwsPre wsi).Attached := by
  rw [serverWriteable]
  split_ifs
  · exact ⟨h.android, h.known⟩
  · exact ⟨h.android, h.known⟩

theorem established_attached (s : Service) (wsi : ℕ) (ready : Option (List UInt8)) :
    (s.apply lwsPre (.established wsi ready)).Attached := by
  have hclient : ∀ u : Service, (u.register wsi |>.onAndroidConnect ready).androidConnected = true ∧
      (u.register wsi |>.onAndroidConnect ready).server.clientConnected = true ∧
      (u.register wsi |>.onAndroidConnect ready).server.clientWsi = some wsi := by
    intro u
    cases ready with
    | none => exact ⟨rfl, rfl, rfl⟩
    | some text =>
      obtain ⟨hwsi, hconnected⟩ := wsQueueMessage_client (u.register wsi).server text
      rw [onAndroidConnect]
      rcases queueMessage_cases (s := { u.register wsi with androidConnected := true }) text with
        ⟨-, heq⟩ | ⟨-, heq⟩ <;> rw [heq]
      · exact ⟨rfl, hconnected, hwsi⟩
      · exact ⟨rfl, rfl, rfl⟩
  obtain ⟨handroid, hconnected, hwsi⟩ := hclient (if s.server.clientConnected ∧
    s.server.clientWsi ≠ none ∧ s.server.clientWsi ≠ some wsi then s.detach else s)
  refine ⟨handroid.trans hconnected.symm, fun c hc => ?_⟩
  obtain rfl : wsi = c := Option.some.inj (hwsi.symm.trans hc)
  simp [apply]

theorem step_attached (h : s.Attached) {ev : Event} (hstep : Step lwsPre s ev t) : t.Attached := by
  obtain ⟨-, rfl⟩ := hstep
  cases ev with
  | established wsi ready => exact established_attached s wsi ready
  | closed wsi =>
    have hclosed : (s.closed wsi).Attached := by
      rw [closed]
      split_ifs
      · exact detach_attached s
      · exact h
    refine ⟨hclosed.android, fun c hc => ?_⟩
    simp only [apply]
    split_ifs
    · rintro ⟨⟩
    · refine h.known c ?_
      simp only [apply, closed] at hc
      split_ifs at hc
      · cases hc
      · exact hc
  | serverWriteable wsi => exact serverWriteable_attached h wsi
  | enqueue json => exact queueMessage_attached h json

theorem queueMessage_dropped (hroom : s.server.queue.count < wsQueueSize) (json : List UInt8) :
    (s.queueMessage json).2.server.queueDropped = s.server.queueDropped ∧
      (s.queueMessage json).2.server.queue.count ≤ s.server.queue.count + 1 := by
  have hmake : s.server.makeRoom.queueDropped = s.server.queueDropped ∧
      s.server.makeRoom.queue.count = s.server.queue.count := by
    rw [show s.server.makeRoom = s.server from dif_neg (Nat.not_le.mpr hroom)]
    exact ⟨rfl, rfl⟩
  rcases s.queueMessage_cases json with ⟨hok, heq⟩ | ⟨-, heq⟩ <;> rw [heq]
  · obtain ⟨hconnected, hwsi, hfits⟩ := (wsQueueMessage_accepts_iff _ _).mp hok
    rw [accept, wsQueueMessage, if_neg (by simp [hconnected, hwsi]), dif_pos hfits]
    exact ⟨hmake.1, (congrArg (· + 1) hmake.2).le⟩
  · exact ⟨rfl, Nat.le_succ _⟩

/-- The callbacks of the library drop nothing: a new client has an empty queue. -/
theorem callback_dropped (h : s.Consistent lwsPre) (hs : s.Attached) {ev : Event}
    (hev : ∀ json, ev ≠ .enqueue json) (hstep : Step lwsPre s ev t) :
    t.server.queueDropped = s.server.queueDropped ∧
      t.server.queue.count ≤ max s.server.queue.count 1 := by
  obtain ⟨henabled, rfl⟩ := hstep
  cases ev with
  | established wsi ready =>
    obtain ⟨u, hu⟩ : ∃ u, u = if s.server.clientConnected ∧ s.server.clientWsi ≠ none ∧
      s.server.clientWsi ≠ some wsi then s.detach else s := ⟨_, rfl⟩
    have hempty : u.server.queue.count = 0 ∧
        u.server.queueDropped = s.server.queueDropped := by
      rw [hu]
      split_ifs with hold
      · exact ⟨rfl, rfl⟩
      · refine ⟨?_, rfl⟩
        have hnone : s.server.clientWsi = none := by
          by_contra hsome
          refine hold ⟨h.connected.mpr hsome, hsome, fun heq => ?_⟩
          exact hs.known wsi heq henabled
        rw [← h.pending_length, h.client hnone, List.length_nil]
    have hresult : (u.register wsi |>.onAndroidConnect ready).server.queueDropped =
          u.server.queueDropped ∧
        (u.register wsi |>.onAndroidConnect ready).server.queue.count ≤ 1 := by
      cases ready with
      | none => exact ⟨rfl, hempty.1.le.trans (by decide)⟩
      | some text =>
        obtain ⟨v, hv, hcount, hdropped⟩ : ∃ v,
          v = { u.register wsi with androidConnected := true } ∧
          v.server.queue.count = 0 ∧ v.server.queueDropped = u.server.queueDropped :=
          ⟨_, rfl, hempty.1, rfl⟩
        have hput := queueMessage_dropped (s := v) (hcount.trans_lt (by decide)) text
        rw [hdropped, hcount, hv] at hput
        exact hput
    rw [hu] at hresult hempty
    exact ⟨hresult.1.trans hempty.2, hresult.2.trans (le_max_right _ _)⟩
  | closed wsi =>
    change (s.closed wsi).server.queueDropped = _ ∧ (s.closed wsi).server.queue.count ≤ _
    rw [closed]
    split_ifs
    · exact ⟨rfl, Nat.zero_le _⟩
    · exact ⟨rfl, le_max_left _ _⟩
  | serverWriteable wsi =>
    change (s.serverWriteable lwsPre wsi).server.queueDropped = _ ∧
      (s.serverWriteable lwsPre wsi).server.queue.count ≤ _
    rw [serverWriteable]
    split_ifs
    · exact ⟨rfl, (Nat.sub_le _ _).trans (le_max_left _ _)⟩
    · exact ⟨rfl, le_max_left _ _⟩
  | enqueue json => exact absurd rfl (hev json)

end Service

end SnipeIt.WebSocket
