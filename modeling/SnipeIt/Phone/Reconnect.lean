import SnipeIt.Phone.Client
import SnipeIt.WebSocket.Service

/-! # Two clients of one app

The app may connect again while an earlier client object is still open. The
server then evicts the older connection, whose object hears about it at some
later time. Every callback of an older object after the newest one was opened
and told that the stream is ready is recorded.
-/

namespace SnipeIt.Phone
open Support WebSocket

/-- What has happened to one client object. -/
structure ClientObject where
  opened : Bool
  gotReady : Bool
  closed : Bool

/-- The app before and after a callback of an older client object. -/
structure LateCallback where
  object : ℕ
  before : RaspberryPiClient
  after : RaspberryPiClient

/-- The server, the app, its client objects and the messages on their way to them. Connection
`n` of the server belongs to object `n`. -/
structure System where
  service : Service
  app : RaspberryPiClient
  created : ℕ
  objects : ℕ → ClientObject
  inbox : ℕ → List (List UInt8)
  late : List LateCallback

inductive SystemEvent where
  | connect (ipAddress : String)
  | server (ev : Event)
  | onOpen (object : ℕ)
  | onMessage (object : ℕ)
  | onClose (object : ℕ)
  | onError (object : ℕ)

namespace System

def init : System := ⟨.init, .init, 0, fun _ => ⟨false, false, false⟩, fun _ => [], []⟩

/-- The newest client object was opened and has received `stream_ready`. -/
def Live (s : System) : Prop :=
  (s.objects (s.created - 1)).opened = true ∧ (s.objects (s.created - 1)).gotReady = true

instance (s : System) : Decidable s.Live := inferInstanceAs (Decidable (_ ∧ _))

/-- An older client object calls back while the newest one is in use. -/
def Late (s : System) (object : ℕ) : Prop := object + 1 < s.created ∧ s.Live

instance (s : System) (object : ℕ) : Decidable (s.Late object) :=
  inferInstanceAs (Decidable (_ ∧ _))

/-- The callback of an event. `parse` stands for the JSON library. -/
def callbackOf (parse : List UInt8 → Message) (s : System) : SystemEvent → Option (ℕ × Callback)
  | .onOpen c => some (c, .onOpen)
  | .onMessage c => some (c, .onMessage (((s.inbox c).head?.map parse).getD .other))
  | .onClose c => some (c, .onClose)
  | .onError c => some (c, .onError)
  | _ => none

def ClientObject.after (object : ClientObject) : Callback → ClientObject
  | .onOpen => { object with opened := true }
  | .onMessage (.streamReady _ _) => { object with gotReady := true }
  | .onMessage _ => object
  | .onClose => { object with closed := true }
  | .onError => object

def run (s : System) (object : ℕ) (cb : Callback) : System :=
  { s with
    app := s.app.callback cb
    objects := fun c => if c = object then ClientObject.after (s.objects c) cb else s.objects c
    late := if s.Late object then s.late ++ [⟨object, s.app, s.app.callback cb⟩] else s.late }

def apply (lwsPre : ℕ) (parse : List UInt8 → Message) (s : System) : SystemEvent → System
  | .connect ipAddress =>
    { s with app := s.app.connect ipAddress s.created, created := s.created + 1 }
  | .server ev =>
    { s with
      service := s.service.apply lwsPre ev
      inbox := fun c => s.inbox c ++
        (((s.service.apply lwsPre ev).written.drop s.service.written.length).filter
          (·.dest = c)).map (·.bytes) }
  | .onOpen c => s.run c .onOpen
  | .onMessage c =>
    { s.run c (.onMessage (((s.inbox c).head?.map parse).getD .other)) with
      inbox := fun c' => if c' = c then (s.inbox c).tail else s.inbox c' }
  | .onClose c => s.run c .onClose
  | .onError c => s.run c .onError

/-- An object is opened once, after the server has established its connection, gets messages
until it is closed, and is closed once. -/
def Enabled (s : System) : SystemEvent → Prop
  | .connect _ => True
  | .server (.established wsi ready) =>
    s.service.Enabled (.established wsi ready) ∧ wsi < s.created
  | .server ev => s.service.Enabled ev
  | .onOpen c => c < s.created ∧ s.service.phase c ≠ .fresh ∧ (s.objects c).opened = false ∧
      (s.objects c).closed = false
  | .onMessage c => (s.objects c).opened = true ∧ (s.objects c).closed = false ∧ s.inbox c ≠ []
  | .onClose c => c < s.created ∧ (s.objects c).closed = false
  | .onError c => c < s.created

def Step (lwsPre : ℕ) (parse : List UInt8 → Message) (s : System) (ev : SystemEvent)
    (t : System) : Prop :=
  s.Enabled ev ∧ t = s.apply lwsPre parse ev

/-- A late callback is harmless to the app. -/
def HarmlessWhenLate (parse : List UInt8 → Message) (s : System) (ev : SystemEvent) : Prop :=
  ∀ object cb, s.callbackOf parse ev = some (object, cb) → s.Late object → s.app.Harmless cb

variable {lwsPre : ℕ} {parse : List UInt8 → Message} {s t : System}

theorem run_late (s : System) (object : ℕ) (cb : Callback) :
    ((s.run object cb).late = s.late ∧ (s.Late object → s.app.Harmless cb)) ∨
      ∃ e, (s.run object cb).late = s.late ++ [e] ∧
        (RaspberryPiClient.Leaves e.before e.after ↔ (s.Late object → s.app.Harmless cb)) := by
  by_cases hlate : s.Late object
  · refine .inr ⟨⟨object, s.app, s.app.callback cb⟩, if_pos hlate, ?_⟩
    rw [RaspberryPiClient.leaves_callback_iff]
    exact ⟨fun h _ => h, fun h => h hlate⟩
  · exact .inl ⟨if_neg hlate, fun h => absurd h hlate⟩

/-- One step records at most one late callback, which leaves the app alone exactly when it is
harmless. -/
theorem step_late {ev : SystemEvent} (hstep : Step lwsPre parse s ev t) :
    (t.late = s.late ∧ s.HarmlessWhenLate parse ev) ∨ ∃ e, t.late = s.late ++ [e] ∧
      (RaspberryPiClient.Leaves e.before e.after ↔ s.HarmlessWhenLate parse ev) := by
  obtain ⟨-, rfl⟩ := hstep
  have hone {object : ℕ} {cb : Callback} (hcb : s.callbackOf parse ev = some (object, cb)) :
      s.HarmlessWhenLate parse ev ↔ (s.Late object → s.app.Harmless cb) := by
    rw [HarmlessWhenLate, hcb]
    constructor
    · exact fun h => h object cb rfl
    · rintro h _ _ ⟨rfl, rfl⟩
      exact h
  cases ev with
  | connect ipAddress => exact .inl ⟨rfl, fun _ _ h => nomatch h⟩
  | server ev => exact .inl ⟨rfl, fun _ _ h => nomatch h⟩
  | onOpen c =>
    rw [hone rfl]
    exact s.run_late c .onOpen
  | onMessage c =>
    rw [hone rfl]
    exact s.run_late c _
  | onClose c =>
    rw [hone rfl]
    exact s.run_late c .onClose
  | onError c =>
    rw [hone rfl]
    exact s.run_late c .onError

end System

/-- Reconnecting: in a run the callbacks of older client objects leave the connection of the
newest one alone exactly when each of them is harmless. -/
theorem late_callbacks_leave_iff {lwsPre : ℕ} {parse : List UInt8 → Message}
    {evs : List SystemEvent} {s : System}
    (h : Run (System.Step lwsPre parse) System.init evs s) :
    (∀ e ∈ s.late, RaspberryPiClient.Leaves e.before e.after) ↔
      Run (Guarded (System.HarmlessWhenLate parse) (System.Step lwsPre parse)) System.init evs s :=
  h.logged_iff_guarded (I := fun _ => True) trivial rfl
    (fun _ _ _ _ hstep => ⟨trivial, System.step_late hstep⟩)

/-- A parser for a server that only sends `stream_ready`. -/
def readyOnly (_ : List UInt8) : Message := .streamReady none none

def replay (evs : List SystemEvent) : System :=
  evs.foldl (System.apply 16 readyOnly) System.init

/-- The app connects twice, and the second client object is told that the stream is ready. The
callback for the opening of the first one is still to come. -/
def secondReady : List SystemEvent :=
  [.connect "10.0.0.1", .server (.established 0 none), .connect "10.0.0.1",
    .server (.established 1 (some [123])), .onOpen 1, .server (.serverWriteable 1), .onMessage 1]

theorem secondReady_run :
    Run (Guarded (System.HarmlessWhenLate readyOnly) (System.Step 16 readyOnly)) System.init
      secondReady (replay secondReady) := by
  have hnewest {s : System} (hcreated : s.created ≤ 2) {ev : SystemEvent} {cb : Callback}
      (hcb : s.callbackOf readyOnly ev = some (1, cb)) : s.HarmlessWhenLate readyOnly ev := by
    intro object cb' hev hlate
    rw [hcb, Option.some.injEq, Prod.mk.injEq] at hev
    have := hlate.1
    omega
  have hquiet {s : System} {ev : SystemEvent} (hcb : s.callbackOf readyOnly ev = none) :
      s.HarmlessWhenLate readyOnly ev := by
    intro object cb hev
    rw [hcb] at hev
    cases hev
  exact .cons ⟨hquiet rfl, trivial, rfl⟩ (.cons ⟨hquiet rfl, ⟨rfl, by decide⟩, rfl⟩
    (.cons ⟨hquiet rfl, trivial, rfl⟩ (.cons ⟨hquiet rfl, ⟨rfl, by decide⟩, rfl⟩
    (.cons ⟨hnewest (by decide) rfl, ⟨by decide, by decide, rfl, rfl⟩, rfl⟩
    (.cons ⟨hquiet rfl, ⟨rfl, rfl⟩, rfl⟩
    (.single ⟨hnewest (by decide) rfl, ⟨rfl, rfl, by decide⟩, rfl⟩))))))

/-- The late opening of the first client object is harmless. -/
theorem late_open_leaves :
    (replay (secondReady ++ [.onOpen 0])).late.length = 1 ∧
      ∀ e ∈ (replay (secondReady ++ [.onOpen 0])).late,
        RaspberryPiClient.Leaves e.before e.after := by
  have hopen : System.Step 16 readyOnly (replay secondReady) (.onOpen 0)
      (replay (secondReady ++ [.onOpen 0])) := ⟨⟨by decide, by decide, rfl, rfl⟩, rfl⟩
  have hharmless : System.HarmlessWhenLate readyOnly (replay secondReady) (.onOpen 0) := by
    rintro _ _ ⟨rfl, rfl⟩ -
    trivial
  exact ⟨by decide, (late_callbacks_leave_iff (secondReady_run.of_guarded.snoc hopen)).mpr
    (secondReady_run.snoc ⟨hharmless, hopen⟩)⟩

/-- What follows: the server closes the connection it evicted, and the first object hears of it. -/
def firstClosed : List SystemEvent :=
  secondReady ++ [.onOpen 0] ++ [.server (.closed 0)] ++ [.onClose 0]

/-- The first client object tells the app that it is disconnected and has no stream, while the
second one is connected and was told that there is a stream. -/
theorem late_close_disconnects :
    Run (System.Step 16 readyOnly) System.init firstClosed (replay firstClosed) ∧
      ∃ e ∈ (replay firstClosed).late, e.object = 0 ∧
        e.before.connectionStatus = some .connected ∧ e.before.streamReady = true ∧
        e.after.connectionStatus = some .disconnected ∧ e.after.streamReady = false ∧
        ¬ RaspberryPiClient.Leaves e.before e.after := by
  have hopen : System.Step 16 readyOnly (replay secondReady) (.onOpen 0)
      (replay (secondReady ++ [.onOpen 0])) := ⟨⟨by decide, by decide, rfl, rfl⟩, rfl⟩
  have hclosed : System.Step 16 readyOnly (replay (secondReady ++ [.onOpen 0]))
      (.server (.closed 0)) (replay (secondReady ++ [.onOpen 0] ++ [.server (.closed 0)])) :=
    ⟨rfl, rfl⟩
  have hclose : System.Step 16 readyOnly
      (replay (secondReady ++ [.onOpen 0] ++ [.server (.closed 0)])) (.onClose 0)
      (replay firstClosed) := ⟨⟨by decide, rfl⟩, rfl⟩
  have hne : (replay firstClosed).late ≠ [] := by decide
  refine ⟨((secondReady_run.of_guarded.snoc hopen).snoc hclosed).snoc hclose,
    (replay firstClosed).late.getLast hne, List.getLast_mem hne, rfl, rfl, rfl, rfl, rfl, ?_⟩
  intro hleaves
  have hconn : some ConnectionState.disconnected = some .connected := hleaves.status rfl
  cases hconn

end SnipeIt.Phone
