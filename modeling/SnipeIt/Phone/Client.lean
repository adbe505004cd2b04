import Mathlib.Data.Int.Notation
import Mathlib.Tactic.Common

/-! # The app's client of the Pi (`RaspberryPiClient.kt`)

Every call of `connect` makes a new WebSocket client object. The callbacks of
all objects write into the same state of the app and do not say which object
they belong to.
-/

namespace SnipeIt.Phone

inductive ConnectionState where
  | disconnected
  | connecting
  | connected
  | error
deriving DecidableEq

/-- A message as `handleWebSocketMessage` sees it. Sensor data, detections, shooting solutions
and texts that cannot be parsed have no effect on the connection. -/
inductive Message where
  | streamReady (rtspPort : Option ℤ) (streamName : Option String)
  | systemStatus (connectionStatus : Option ConnectionState)
  | other

inductive Callback where
  | onOpen
  | onMessage (message : Message)
  | onClose
  | onError

/-- The part of the app's state that describes the connection; `none` stands for `null`. -/
structure RaspberryPiClient where
  currentIpAddress : Option String
  webSocketClient : Option ℕ
  connectionStatus : Option ConnectionState
  streamReady : Bool
  rtspStreamUrl : Option String

namespace RaspberryPiClient

def init : RaspberryPiClient := ⟨none, none, some .disconnected, false, none⟩

/-- `connect`, which makes the client object number `object`. -/
def connect (app : RaspberryPiClient) (ipAddress : String) (object : ℕ) : RaspberryPiClient :=
  { app with currentIpAddress := some ipAddress, webSocketClient := some object }

/-- The address in a `stream_ready` message, with the host that was connected to last. -/
def rtspUrl (app : RaspberryPiClient) (rtspPort : Option ℤ) (streamName : Option String) : String :=
  "rtsp://" ++ app.currentIpAddress.getD "null" ++ ":" ++ toString (rtspPort.getD 8554) ++ "/" ++
    streamName.getD "stream"

def handleWebSocketMessage (app : RaspberryPiClient) : Message → RaspberryPiClient
  | .streamReady rtspPort streamName =>
    { app with rtspStreamUrl := some (app.rtspUrl rtspPort streamName), streamReady := true }
  | .systemStatus connectionStatus => { app with connectionStatus := connectionStatus }
  | .other => app

/-- The callbacks that `connectWebSocket` gives to every client object. -/
def callback (app : RaspberryPiClient) : Callback → RaspberryPiClient
  | .onOpen => { app with connectionStatus := some .connected }
  | .onMessage message => app.handleWebSocketMessage message
  | .onClose =>
    { app with
      connectionStatus := some .disconnected
      streamReady := false
      rtspStreamUrl := none }
  | .onError => { app with connectionStatus := some .error }

/-- A connection stays connected, a ready stream stays ready and its address stays the same. -/
structure Leaves (before after : RaspberryPiClient) : Prop where
  status : before.connectionStatus = some .connected → after.connectionStatus = some .connected
  ready : before.streamReady = true → after.streamReady = true
  url : after.rtspStreamUrl = before.rtspStreamUrl

/-- The callbacks that cannot hurt: a close or an error when there is nothing to lose, a stream
with the same address, and no other status than connected. -/
def Harmless (app : RaspberryPiClient) : Callback → Prop
  | .onOpen => True
  | .onMessage (.streamReady rtspPort streamName) =>
    app.rtspStreamUrl = some (app.rtspUrl rtspPort streamName)
  | .onMessage (.systemStatus connectionStatus) =>
    app.connectionStatus = some .connected → connectionStatus = some .connected
  | .onMessage .other => True
  | .onClose => app.connectionStatus ≠ some .connected ∧ app.streamReady = false ∧
      app.rtspStreamUrl = none
  | .onError => app.connectionStatus ≠ some .connected

/-- One callback leaves the connection alone exactly when it is harmless. -/
theorem leaves_callback_iff (app : RaspberryPiClient) (cb : Callback) :
    Leaves app (app.callback cb) ↔ app.Harmless cb := by
  cases cb with
  | onOpen => exact ⟨fun _ => trivial, fun _ => ⟨fun _ => rfl, id, rfl⟩⟩
  | onClose =>
    constructor
    · rintro ⟨hstatus, hready, hurl⟩
      refine ⟨fun hconn => ?_, ?_, hurl.symm⟩
      · exact absurd (hstatus hconn) (by simp [callback])
      · rw [← Bool.not_eq_true]
        intro hon
        exact absurd (hready hon) (by simp [callback])
    · rintro ⟨hstatus, hready, hurl⟩
      refine ⟨fun hconn => absurd hconn hstatus, fun hon => ?_, hurl.symm⟩
      rw [hready] at hon
      cases hon
  | onError =>
    constructor
    · rintro ⟨hstatus, -, -⟩ hconn
      exact absurd (hstatus hconn) (by simp [callback])
    · intro hstatus
      exact ⟨fun hconn => absurd hconn hstatus, id, rfl⟩
  | onMessage message =>
    cases message with
    | streamReady rtspPort streamName =>
      exact ⟨fun h => h.url.symm, fun h => ⟨id, fun _ => rfl, h.symm⟩⟩
    | systemStatus connectionStatus => exact ⟨fun h => h.status, fun h => ⟨h, id, rfl⟩⟩
    | other => exact ⟨fun _ => trivial, fun _ => ⟨id, id, rfl⟩⟩

end RaspberryPiClient

end SnipeIt.Phone
