import SnipeIt.Orchestrator.ProcessManager
import SnipeIt.Support.Run

/-! # Streams of the orchestrator (`main.c`)

The camera pipeline is started at boot and kept, a file stream is started for
each app. The callbacks of the WebSocket server, the playback check of the main
loop, the loss of the detector and the shutdown run one at a time, in any order
after the boot.
-/

namespace SnipeIt.Orchestrator
open Support

inductive Phase where
  | booting
  | serving
  | stopped
deriving DecidableEq

/-- One execution of `send_stream_ready`: the number of FFmpeg processes forked so far, and which
of them had exited when the `on_android_connect` call began. -/
structure StreamReady where
  started : ℕ
  exited : ℕ → Bool

/-- `AppState` with the world it runs in. `startFits` tells whether the START command of the
configuration fits its buffer. -/
structure AppState where
  loopVideo : Bool
  startFits : Bool
  pm : ProcessManager
  pythonConnected : Bool
  androidConnected : Bool
  streamingActive : Bool
  phase : Phase
  world : World
  ready : List StreamReady

namespace AppState

def isFfmpegRunning (s : AppState) : Bool × AppState :=
  ((pmIsFfmpegRunning s.pm s.world).1,
    { s with
      pm := (pmIsFfmpegRunning s.pm s.world).2.1
      world := (pmIsFfmpegRunning s.pm s.world).2.2 })

def checkProcesses (s : AppState) : AppState :=
  { s with pm := (pmCheckProcesses s.pm s.world).1, world := (pmCheckProcesses s.pm s.world).2 }

def startFfmpeg (s : AppState) : ℤ × AppState :=
  ((pmStartFfmpeg s.pm s.world).1,
    { s with
      pm := (pmStartFfmpeg s.pm s.world).2.1
      world := (pmStartFfmpeg s.pm s.world).2.2 })

def stopFfmpeg (s : AppState) : AppState :=
  { s with pm := (pmStopFfmpeg s.pm s.world).1, world := (pmStopFfmpeg s.pm s.world).2 }

/-- `config_is_fifo` asks the file system each time; `mkfifo` may fail. -/
def fileCall (s : AppState) : Bool × AppState :=
  (s.world.sysFile.1, { s with world := s.world.sysFile.2 })

def ipcSendStart (s : AppState) : ℤ × AppState :=
  if s.startFits then ((s.world.sysSend .start).1, { s with world := (s.world.sysSend .start).2 })
  else (-1, s)

def ipcSendStop (s : AppState) : AppState := { s with world := (s.world.sysSend .stop).2 }

/-- Stop an FFmpeg process that is still there. -/
def stopRunning (s : AppState) : AppState :=
  if s.isFfmpegRunning.1 then s.isFfmpegRunning.2.stopFfmpeg else s.isFfmpegRunning.2

/-- The tries of `start_camera_stream`: START is sent on the first one. -/
def tryCamera : ℕ → Bool → AppState → Bool × AppState
  | 0, _, s => (false, s.ipcSendStop)
  | tries + 1, first, s =>
    if s.startFfmpeg.1 ≠ 0 then (false, s.startFfmpeg.2.ipcSendStop)
    else
      let sent := if first then s.startFfmpeg.2.ipcSendStart else (0, s.startFfmpeg.2)
      if sent.1 ≠ 0 then (false, sent.2.stopFfmpeg)
      else if sent.2.isFfmpegRunning.1 then
        (true, { sent.2.isFfmpegRunning.2 with streamingActive := true })
      else tryCamera tries false sent.2.isFfmpegRunning.2

def startCameraStream (s : AppState) : Bool × AppState :=
  if s.streamingActive then (true, s)
  else if s.pythonConnected = false then (false, s)
  else if s.stopRunning.fileCall.1 = false then (false, s.stopRunning.fileCall.2)
  else tryCamera 4 true s.stopRunning.fileCall.2

def startFileStream (s : AppState) : Bool × AppState :=
  if s.streamingActive then (true, s)
  else if s.pythonConnected = false then (false, s)
  else
    let sent := s.stopRunning.ipcSendStart
    if sent.1 ≠ 0 then (false, sent.2)
    else if sent.2.startFfmpeg.1 ≠ 0 then (false, sent.2.startFfmpeg.2.ipcSendStop)
    else (true, { sent.2.startFfmpeg.2 with streamingActive := true })

/-- The start function for the kind of source that the file system shows. -/
def startStream (s : AppState) : Bool × AppState :=
  if s.fileCall.1 then s.fileCall.2.startCameraStream else s.fileCall.2.startFileStream

/-- `send_stream_ready`, in a call that began when the processes `exited` were gone. -/
def sendStreamReady (exited : ℕ → Bool) (s : AppState) : AppState :=
  { s with ready := s.ready ++ [⟨s.world.ffmpegs, exited⟩] }

/-! ## The steps of `main` -/

/-- The start of the camera pipeline before the main loop. -/
def boot (s : AppState) : AppState :=
  { (if s.fileCall.1 then s.fileCall.2.startCameraStream.2 else s.fileCall.2) with
    phase := .serving }

def onAndroidConnect (s : AppState) : AppState :=
  if s.pythonConnected = false then { s with androidConnected := true }
  else
    let started := startStream { s with androidConnected := true }
    if started.1 then started.2.sendStreamReady s.world.exited else started.2

/-- Stop a stream, after a STOP to a detector that is connected. -/
def stopStream (s : AppState) : AppState :=
  { (if s.pythonConnected then s.ipcSendStop else s).stopFfmpeg with streamingActive := false }

def onAndroidDisconnect (s : AppState) : AppState :=
  let asked := fileCall { s with androidConnected := false }
  if asked.1 = false ∧ asked.2.streamingActive = true then asked.2.stopStream else asked.2

/-- The check of the main loop whether the playback of a file has ended. -/
def playbackCheck (s : AppState) : AppState :=
  if s.streamingActive = true ∧ s.loopVideo = false then
    if s.fileCall.1 then s.fileCall.2
    else
      let probed := s.fileCall.2.checkProcesses.isFfmpegRunning
      if probed.1 then probed.2
      else { (if s.pythonConnected then probed.2.ipcSendStop else probed.2) with
        streamingActive := false }
  else s

/-- What the check leaves: nothing was asked, the FIFO or FFmpeg is still there, or the stream has
ended. -/
theorem playbackCheck_cases (s : AppState) :
    let probed := s.fileCall.2.checkProcesses.isFfmpegRunning.2
    s.playbackCheck = s ∨ s.playbackCheck = s.fileCall.2 ∨ s.playbackCheck = probed ∨
      s.playbackCheck = { (if s.pythonConnected then probed.ipcSendStop else probed) with
        streamingActive := false } := by
  dsimp only
  rw [playbackCheck]
  by_cases hactive : s.streamingActive = true ∧ s.loopVideo = false
  · rw [if_pos hactive]
    by_cases hfifo : s.fileCall.1 = true
    · rw [if_pos hfifo]
      exact .inr (.inl rfl)
    · rw [if_neg hfifo]
      by_cases halive : s.fileCall.2.checkProcesses.isFfmpegRunning.1 = true
      · rw [if_pos halive]
        exact .inr (.inr (.inl rfl))
      · rw [if_neg halive]
        exact .inr (.inr (.inr rfl))
  · rw [if_neg hactive]
    exact .inl rfl

/-- `close(client_fd)`, after a failed `ipc_recv_message` or in `ipc_cleanup`. -/
def closeClient (s : AppState) : AppState :=
  { s with world := { s.world with wire := s.world.wire.close } }

/-- `ipc_recv_message` has failed and closed the connection. -/
def pythonLost (s : AppState) : AppState :=
  let lost := { s.closeClient with pythonConnected := false }
  if lost.streamingActive then { lost.stopFfmpeg with streamingActive := false } else lost

/-- The last STOP, if a stream is active; the flag is left as it is. -/
def stopAtExit (s : AppState) : AppState :=
  if s.streamingActive then (if s.pythonConnected then s.ipcSendStop else s).stopFfmpeg else s

/-- `ws_cleanup`: destroying the context closes the client that is connected. -/
def wsCleanup (s : AppState) : AppState := if s.androidConnected then s.onAndroidDisconnect else s

/-- The end of `main`. -/
def shutdown (s : AppState) : AppState :=
  let left := s.stopAtExit.closeClient.wsCleanup
  { left with
    pm := (pmCleanup left.pm left.world).1
    world := (pmCleanup left.pm left.world).2
    phase := .stopped }

end AppState

inductive Call where
  | boot
  | androidConnect
  | androidDisconnect
  | playbackCheck
  | pythonLost
  | shutdown

/-- The world moves, or `main` does its next step while the world follows a script. -/
inductive Event where
  | move (m : Move)
  | call (c : Call) (script : List Turn)

namespace AppState

def perform (s : AppState) : Call → AppState
  | .boot => s.boot
  | .androidConnect => s.onAndroidConnect
  | .androidDisconnect => s.onAndroidDisconnect
  | .playbackCheck => s.playbackCheck
  | .pythonLost => s.pythonLost
  | .shutdown => s.shutdown

def follow (s : AppState) (script : List Turn) : AppState :=
  { s with world := { s.world with script := script } }

def apply (s : AppState) : Event → AppState
  | .move m => { s with world := s.world.move m }
  | .call c script => (s.follow script).perform c

def Enabled (s : AppState) : Event → Prop
  | .move _ => True
  | .call .boot _ => s.phase = .booting
  | .call .pythonLost _ => s.phase = .serving ∧ s.pythonConnected = true
  | .call _ _ => s.phase = .serving

def Step (s : AppState) (ev : Event) (t : AppState) : Prop := s.Enabled ev ∧ t = s.apply ev

/-- Foreign processes and mediaMTX run, and the detector has connected. -/
def init (loopVideo startFits : Bool) (others : ℕ → Option Bool) (script : List Turn) : AppState :=
  let w : World := ⟨fun pid => (others pid).map .foreign, 0, 0, fun _ => false, [], .init, script⟩
  { loopVideo := loopVideo
    startFits := startFits
    pm := (pmStartMediamtx pmInit w).2.1
    pythonConnected := true
    androidConnected := false
    streamingActive := false
    phase := .booting
    world := (pmStartMediamtx pmInit w).2.2
    ready := [] }

/-- The process manager and the world moved on, nothing else did; no command was sent. -/
def Moved (k : ℕ) (s t : AppState) : Prop :=
  t = { s with pm := t.pm, world := t.world } ∧ World.Passes k s.world t.world

variable {s t u : AppState}

theorem Moved.refl (s : AppState) : Moved 0 s s := ⟨rfl, .refl _⟩

theorem Moved.trans {j k : ℕ} (h : Moved j s t) (h' : Moved k t u) : Moved (j + k) s u := by
  refine ⟨?_, h.2.trans h'.2⟩
  rw [h'.1, h.1]

theorem isFfmpegRunning_moved (s : AppState) : Moved 0 s s.isFfmpegRunning.2 :=
  ⟨rfl, pmCheckProcesses_passes s.pm s.world⟩

theorem checkProcesses_moved (s : AppState) : Moved 0 s s.checkProcesses :=
  ⟨rfl, pmCheckProcesses_passes s.pm s.world⟩

theorem isFfmpegRunning_eq (s : AppState) :
    s.isFfmpegRunning.2.pm.ffmpeg.running = s.isFfmpegRunning.1 := rfl

theorem stopFfmpeg_moved (s : AppState) : Moved 0 s s.stopFfmpeg :=
  ⟨rfl, pmStopFfmpeg_passes s.pm s.world⟩

theorem fileCall_moved (s : AppState) : Moved 0 s s.fileCall.2 := ⟨rfl, s.world.sysFile_passes⟩

theorem follow_moved (s : AppState) (script : List Turn) : Moved 0 s (s.follow script) :=
  ⟨rfl, s.world.grows_of_same _ _ _, .refl _⟩

theorem stopRunning_moved (s : AppState) : Moved 0 s s.stopRunning := by
  rw [stopRunning]
  split_ifs
  · exact s.isFfmpegRunning_moved.trans (stopFfmpeg_moved _)
  · exact s.isFfmpegRunning_moved

theorem stopRunning_running (s : AppState) : s.stopRunning.pm.ffmpeg.running = false := by
  rw [stopRunning]
  split_ifs with h
  · exact pmStopFfmpeg_running _ _
  · rw [isFfmpegRunning_eq]
    exact Bool.eq_false_iff.mpr h

/-- With no FFmpeg process registered, starting one forks it or fails. -/
theorem startFfmpeg_cases (h : s.pm.ffmpeg.running = false) :
    (s.startFfmpeg.1 ≠ 0 ∧ Moved 0 s s.startFfmpeg.2) ∨
      (s.startFfmpeg.1 = 0 ∧ Moved 1 s s.startFfmpeg.2) := by
  rcases startChild_cases .ffmpeg s.pm.ffmpeg s.world with
    ⟨hrun, -⟩ | ⟨-, hval, -, hpass⟩ | ⟨-, hval, -, hpass⟩
  · rw [h] at hrun
    cases hrun
  · refine .inl ⟨?_, rfl, hpass⟩
    show (startChild .ffmpeg s.pm.ffmpeg s.world).1 ≠ 0
    rw [hval]
    decide
  · exact .inr ⟨hval, rfl, hpass⟩

end AppState

/-- A turn in which nothing moves and the file system says yes. -/
def calm : Turn := ⟨[], none, true⟩

/-- A turn in which a fork gets a process id and the file system says no. -/
def forkAs (pid : ℕ) : Turn := ⟨[], some pid, false⟩

def up : AppState := .init false true (fun _ => none) [forkAs 100]

end SnipeIt.Orchestrator
