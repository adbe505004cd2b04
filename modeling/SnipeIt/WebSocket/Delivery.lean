import SnipeIt.WebSocket.Service

/-! # What reaches which client

A written message is the accepted one, cut at a limit that is smaller than a
slot of the ring, and it goes to whichever connection the writable callback is
for: an evicted connection takes what was queued for its successor.
-/

namespace SnipeIt.WebSocket
open Support Service

namespace Service

variable {lwsPre : ℕ} {s t : Service}

/-- A writable callback that finds a message is for the present client. -/
def OwnTurn (s : Service) : Event → Prop
  | .serverWriteable wsi => 0 < s.server.queue.count → s.server.clientWsi = some wsi
  | _ => True

theorem queueMessage_written (json : List UInt8) :
    (s.queueMessage json).2.written = s.written := by
  rcases s.queueMessage_cases json with ⟨-, heq⟩ | ⟨-, heq⟩ <;> rw [heq]
  rfl

theorem onAndroidConnect_written (ready : Option (List UInt8)) :
    (s.onAndroidConnect ready).written = s.written := by
  cases ready with
  | none => rfl
  | some text => exact queueMessage_written text

theorem established_written (wsi : ℕ) (ready : Option (List UInt8)) :
    (s.established wsi ready).written = s.written := by
  rw [established, onAndroidConnect_written]
  split_ifs <;> rfl

theorem closed_written (wsi : ℕ) : (s.closed wsi).written = s.written := by
  rw [closed]
  split_ifs <;> rfl

/-- One step writes nothing, or the oldest message of the present client. -/
theorem step_written (h : s.Consistent lwsPre) {ev : Event} (hstep : Step lwsPre s ev t) :
    (t.written = s.written ∧ s.OwnTurn ev) ∨
    ∃ wsi m, ev = .serverWriteable wsi ∧ 0 < s.server.queue.count ∧ m ∈ s.pending ∧
      m.addressee = s.server.clientWsi ∧
      t.written = s.written ++ [⟨wsi, m, m.data.take (Memory.sizeSub wsMaxMsgSize lwsPre)⟩] := by
  obtain ⟨-, rfl⟩ := hstep
  cases ev with
  | established wsi ready => exact .inl ⟨established_written wsi ready, trivial⟩
  | closed wsi => exact .inl ⟨closed_written wsi, trivial⟩
  | enqueue json => exact .inl ⟨queueMessage_written json, trivial⟩
  | serverWriteable wsi =>
    rcases serverWriteable_cases h wsi with
      ⟨hzero, hwritten, -⟩ | ⟨m, rest, hpos, hsplit, haddr, -, -, -, hwritten⟩
    · exact .inl ⟨hwritten, fun hpos => absurd hpos (by omega)⟩
    · refine .inr ⟨wsi, m, rfl, hpos, ?_, haddr, hwritten⟩
      rw [hsplit]
      exact List.mem_cons_self

/-- Messages enter the ring with a new number. -/
def Extends (s t : Service) : Prop :=
  s.nextId ≤ t.nextId ∧ ∀ m ∈ t.pending, m ∈ s.pending ∨ s.nextId ≤ m.id

theorem queueMessage_extends (json : List UInt8) : s.Extends (s.queueMessage json).2 := by
  rcases s.queueMessage_cases json with ⟨-, heq⟩ | ⟨-, heq⟩ <;> rw [heq]
  · refine ⟨Nat.le_succ _, fun m hm => ?_⟩
    rcases List.mem_append.mp hm with hold | hnew
    · exact .inl (mem_kept hold)
    · rw [List.mem_singleton.mp hnew]
      exact .inr le_rfl
  · exact ⟨le_rfl, fun m hm => .inl hm⟩

theorem onAndroidConnect_extends (ready : Option (List UInt8)) :
    s.Extends (s.onAndroidConnect ready) := by
  cases ready with
  | none => exact ⟨le_rfl, fun m hm => .inl hm⟩
  | some text => exact queueMessage_extends (s := { s with androidConnected := true }) text

theorem step_extends (h : s.Consistent lwsPre) {ev : Event} (hstep : Step lwsPre s ev t) :
    s.Extends t := by
  obtain ⟨-, rfl⟩ := hstep
  cases ev with
  | established wsi ready =>
    obtain ⟨hnext, hpending⟩ := onAndroidConnect_extends (s := register (if
      s.server.clientConnected ∧ s.server.clientWsi ≠ none ∧ s.server.clientWsi ≠ some wsi
        then s.detach else s) wsi) ready
    refine ⟨le_trans ?_ hnext, fun m hm => (hpending m hm).imp ?_ (le_trans ?_)⟩
    · split_ifs <;> exact le_rfl
    · intro hm
      split_ifs at hm
      · exact absurd hm List.not_mem_nil
      · exact hm
    · split_ifs <;> exact le_rfl
  | closed wsi =>
    show s.Extends (s.closed wsi)
    rw [closed]
    split_ifs
    · exact ⟨le_rfl, fun m hm => absurd hm List.not_mem_nil⟩
    · exact ⟨le_rfl, fun m hm => .inl hm⟩
  | enqueue json => exact queueMessage_extends json
  | serverWriteable wsi =>
    refine ⟨(serverWriteable_nextId wsi).ge, fun m hm => .inl ?_⟩
    rcases serverWriteable_cases h wsi with
      ⟨-, -, hpending, -⟩ | ⟨m', rest, -, hsplit, -, -, hpending, -⟩
    · exact hpending ▸ hm
    · rw [hsplit]
      exact List.mem_cons_of_mem m' (hpending ▸ hm)

/-- The message numbered `n` is `json`, wherever it is. -/
def Numbered (n : ℕ) (json : List UInt8) (s : Service) : Prop :=
  n < s.nextId ∧ (∀ m ∈ s.pending, m.id = n → m.data = json) ∧
    ∀ w ∈ s.written, w.message.id = n → w.message.data = json

theorem step_numbered {n : ℕ} {json : List UInt8} (h : s.Consistent lwsPre)
    (hn : s.Numbered n json) {ev : Event} (hstep : Step lwsPre s ev t) : t.Numbered n json := by
  obtain ⟨hlt, hpending, hwritten⟩ := hn
  obtain ⟨hnext, hnew⟩ := step_extends h hstep
  refine ⟨by omega, fun m hm hid => ?_, fun w hw hid => ?_⟩
  · rcases hnew m hm with hold | hfresh
    · exact hpending m hold hid
    · omega
  · rcases step_written h hstep with ⟨hsame, -⟩ | ⟨wsi, m, -, -, hm, -, happend⟩
    · exact hwritten w (hsame ▸ hw) hid
    · rw [happend] at hw
      rcases List.mem_append.mp hw with hold | hlast
      · exact hwritten w hold hid
      · rw [List.mem_singleton.mp hlast] at hid ⊢
        exact hpending m hm hid

theorem accept_numbered (h : s.Consistent lwsPre) (json : List UInt8) :
    (s.accept json).Numbered s.nextId json := by
  refine ⟨Nat.lt_succ_self _, fun m hm hid => ?_, fun w hw hid => ?_⟩
  · rcases List.mem_append.mp hm with hold | hnew
    · exact absurd hid (h.older m (mem_kept hold)).ne
    · rw [List.mem_singleton.mp hnew]
  · exact absurd hid (h.cut w hw).1.ne

/-- What decides whether a message goes to its addressee. -/
theorem step_addressee (h : s.Consistent lwsPre) {ev : Event} (hstep : Step lwsPre s ev t) :
    (t.written = s.written ∧ s.OwnTurn ev) ∨ ∃ w, t.written = s.written ++ [w] ∧
      (w.message.addressee = some w.dest ↔ s.OwnTurn ev) := by
  rcases step_written h hstep with hsame | ⟨wsi, m, rfl, hpos, -, haddr, happend⟩
  · exact .inl hsame
  · refine .inr ⟨_, happend, ?_⟩
    rw [haddr]
    exact ⟨fun heq _ => heq, fun hturn => hturn hpos⟩

end Service

/-! ## One message for one client -/

def connected (lwsPre : ℕ) : Service := init.apply lwsPre (.established 0 none)

/-- It is sent one message and becomes writable. -/
def delivered (lwsPre : ℕ) (json : List UInt8) : Service :=
  ((connected lwsPre).accept json).apply lwsPre (.serverWriteable 0)

theorem connected_run (lwsPre : ℕ) :
    Run (Step lwsPre) init [.established 0 none] (connected lwsPre) :=
  .single ⟨rfl, rfl⟩

theorem connected_forward (lwsPre : ℕ) {json : List UInt8} (h : json.length < wsMaxMsgSize) :
    (connected lwsPre).forwardDetection json = (some 0, (connected lwsPre).accept json) := by
  have hok : (wsQueueMessage (connected lwsPre).server json).1 = 0 :=
    (wsQueueMessage_accepts_iff _ _).mpr ⟨rfl, by simp [connected, apply, established,
      onAndroidConnect, register], h⟩
  show (some (wsQueueMessage (connected lwsPre).server json).1, _) = _
  rw [queueMessage, if_pos hok, hok]

theorem delivered_run (lwsPre : ℕ) (json : List UInt8) :
    Run (Step lwsPre) ((connected lwsPre).accept json) [.serverWriteable 0]
      (delivered lwsPre json) :=
  .single ⟨⟨rfl, rfl⟩, rfl⟩

theorem delivered_written (lwsPre : ℕ) {json : List UInt8} (h : json.length < wsMaxMsgSize) :
    (delivered lwsPre json).written =
      [⟨0, ⟨0, some 0, json⟩, json.take (Memory.sizeSub wsMaxMsgSize lwsPre)⟩] := by
  have hok : (wsQueueMessage (connected lwsPre).server json).1 = 0 :=
    (wsQueueMessage_accepts_iff _ _).mpr ⟨rfl, by simp [connected, apply, established,
      onAndroidConnect, register], h⟩
  have hs := accept_consistent (run_consistent (connected_run lwsPre)) hok
  have hpending : ((connected lwsPre).accept json).pending = [⟨0, some 0, json⟩] := rfl
  rcases serverWriteable_cases hs 0 with ⟨hzero, -⟩ | ⟨m, rest, -, hsplit, -, -, -, -, hwritten⟩
  · have hlen := hs.pending_length
    rw [hpending, hzero] at hlen
    cases hlen
  · rw [hpending] at hsplit
    obtain ⟨rfl, -⟩ := List.cons.inj hsplit
    exact hwritten

/-- Delivery: a detection that was accepted for the client and is later taken from the ring is
written byte for byte exactly when it fits the limit of the writable callback. -/
theorem delivered_whole_iff {lwsPre : ℕ} {evs evs' : List Event} {s t : Service}
    (h : Run (Step lwsPre) init evs s) {json : List UInt8}
    (hok : (s.forwardDetection json).1 = some 0)
    (h' : Run (Step lwsPre) (s.forwardDetection json).2 evs' t) {w : Write} (hw : w ∈ t.written)
    (hid : w.message.id = s.nextId) :
    w.bytes = json ↔ json.length ≤ Memory.sizeSub wsMaxMsgSize lwsPre := by
  have hs := run_consistent h
  have hconn : s.androidConnected = true := by
    by_contra hoff
    simp [forwardDetection, hoff] at hok
  simp only [forwardDetection, hconn, if_true, Option.some.injEq] at hok h'
  have hnext : (s.queueMessage json).2 = s.accept json := if_pos hok
  rw [hnext] at h'
  have ht : t.Consistent lwsPre ∧ t.Numbered s.nextId json :=
    h'.invariant (P := fun t => t.Consistent lwsPre ∧ t.Numbered s.nextId json)
      ⟨accept_consistent hs hok, accept_numbered hs json⟩
      (fun t ev u ht hstep => ⟨step_consistent ht.1 hstep, step_numbered ht.1 ht.2 hstep⟩)
  rw [(ht.1.cut w hw).2, ht.2.2.2 w hw hid]
  constructor
  · intro htake
    rw [← htake, List.length_take]
    exact Nat.min_le_left _ _
  · exact List.take_of_length_le

/-- Two bytes arrive. -/
theorem short_detection_whole : (delivered 16 [123, 125]).written.length = 1 ∧
    ∀ w ∈ (delivered 16 [123, 125]).written, w.bytes = [123, 125] := by
  have hlen : ([123, 125] : List UInt8).length < wsMaxMsgSize := by decide
  have hforward := connected_forward 16 hlen
  have hid : ∀ w ∈ (delivered 16 [123, 125]).written, w.message.id = (connected 16).nextId := by
    rw [delivered_written 16 hlen]
    intro w hw
    rw [List.mem_singleton.mp hw]
    rfl
  have hok : ((connected 16).forwardDetection [123, 125]).1 = some 0 := by rw [hforward]
  have hlater : Run (Step 16) ((connected 16).forwardDetection [123, 125]).2 [.serverWriteable 0]
      (delivered 16 [123, 125]) := by
    rw [hforward]
    exact delivered_run 16 _
  refine ⟨by rw [delivered_written 16 hlen]; rfl, fun w hw => ?_⟩
  exact (delivered_whole_iff (connected_run 16) hok hlater hw (hid w hw)).mpr (by decide)

/-- The longest message Python can send. -/
def longDetection : List UInt8 := List.replicate (wsMaxMsgSize - 1) 97

/-- With 16 bytes of padding it is accepted for the client, and 4080 bytes are written. -/
theorem long_detection_cut :
    Run (Step 16) init [.established 0 none] (connected 16) ∧
      ((connected 16).forwardDetection longDetection).1 = some 0 ∧
      Run (Step 16) ((connected 16).forwardDetection longDetection).2 [.serverWriteable 0]
        (delivered 16 longDetection) ∧
      ∃ w ∈ (delivered 16 longDetection).written, w.message.id = (connected 16).nextId ∧
        longDetection.length = 4095 ∧ w.bytes.length = 4080 ∧ w.bytes ≠ longDetection := by
  have hlen : longDetection.length = 4095 := by
    rw [longDetection, List.length_replicate]
    rfl
  have hshort : longDetection.length < wsMaxMsgSize := by
    rw [hlen]
    decide
  have hforward := connected_forward 16 hshort
  have hcut : (longDetection.take (Memory.sizeSub wsMaxMsgSize 16)).length = 4080 := by
    rw [List.length_take, hlen]
    decide
  refine ⟨connected_run 16, by rw [hforward], by rw [hforward]; exact delivered_run 16 _,
    ⟨0, ⟨0, some 0, longDetection⟩, longDetection.take (Memory.sizeSub wsMaxMsgSize 16)⟩,
    ?_, rfl, hlen, hcut, ?_⟩
  · rw [delivered_written 16 hshort]
    exact List.mem_singleton_self _
  · intro heq
    have hlong := (congrArg List.length heq).symm.trans hcut
    rw [hlen] at hlong
    exact absurd hlong (by decide)

/-- Sessions: a run writes every message only to the client that it was queued for exactly when
no writable callback finds messages of another client. -/
theorem written_to_addressee_iff {lwsPre : ℕ} {evs : List Event} {s : Service}
    (h : Run (Step lwsPre) init evs s) :
    (∀ w ∈ s.written, w.message.addressee = some w.dest) ↔
      Run (Guarded OwnTurn (Step lwsPre)) init evs s :=
  h.logged_iff_guarded init_consistent rfl
    (fun _ _ _ hs hstep => ⟨step_consistent hs hstep, step_addressee hs hstep⟩)

/-- A message that was queued for the only client. -/
theorem only_client_addressee : (delivered 16 [123, 125]).written.length = 1 ∧
    ∀ w ∈ (delivered 16 [123, 125]).written, w.message.addressee = some w.dest := by
  have haccept : Step 16 (connected 16) (.enqueue [123, 125]) ((connected 16).accept [123, 125]) :=
    ⟨trivial, rfl⟩
  have hrun := ((connected_run 16).snoc haccept).append (delivered_run 16 [123, 125])
  refine ⟨by rw [delivered_written 16 (by decide)]; rfl, (written_to_addressee_iff hrun).mpr ?_⟩
  exact ((Run.nil.snoc ⟨trivial, ⟨rfl, rfl⟩⟩).snoc ⟨trivial, haccept⟩).snoc
    ⟨fun _ => rfl, ⟨⟨rfl, rfl⟩, rfl⟩⟩

/-- Client 0 has a message waiting when client 1 takes its place. -/
def evicted : Service :=
  ((connected 16).apply 16 (.enqueue [97])).apply 16 (.established 1 (some [98]))

/-- The writable callback that client 0 asked for comes after its eviction and takes the message
that was queued for client 1. -/
theorem evicted_client_served :
    Run (Step 16) init [.established 0 none, .enqueue [97], .established 1 (some [98]),
        .serverWriteable 0] (evicted.apply 16 (.serverWriteable 0)) ∧
      (evicted.apply 16 (.serverWriteable 0)).written.map
        (fun w => (w.dest, w.message.addressee, w.bytes)) = [(0, some 1, [98])] := by
  have hqueue : Step 16 (connected 16) (.enqueue [97])
      ((connected 16).apply 16 (.enqueue [97])) := ⟨trivial, rfl⟩
  have hnew : Step 16 ((connected 16).apply 16 (.enqueue [97])) (.established 1 (some [98]))
      evicted := ⟨rfl, rfl⟩
  have hserved : Step 16 evicted (.serverWriteable 0)
      (evicted.apply 16 (.serverWriteable 0)) := ⟨⟨rfl, rfl⟩, rfl⟩
  exact ⟨(((connected_run 16).snoc hqueue).snoc hnew).snoc hserved, by decide⟩

end SnipeIt.WebSocket
