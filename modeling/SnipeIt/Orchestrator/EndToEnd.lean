import SnipeIt.Detector.Session
import SnipeIt.Orchestrator.MainLoop
import SnipeIt.Phone.TargetMarker

/-! # From the camera to the screen

What the detector sends in a session of the camera is read by the main loop, written
to phones, and drawn there: the models of all ends, put together.
-/

namespace SnipeIt.Orchestrator
open Support List
open Bridge (TickingBridge ReadyConfig Mirrors)
open Config (StreamingConfig)
open Detector (EdgeTPUPersonDetector CameraTurn CameraSession SentDetection detect detectionsPayload
  truncate)
open Phone (DetectedTarget InVideo enhancedTargetMarker)
open MainLoop

def batchOf (m : SentDetection ℚ) : Batch := (m.timestampMs, m.detections)

/-- The batches that a camera session puts on the socket. -/
def cameraBatches (d : EdgeTPUPersonDetector ℚ) (frameInterval : ℤ) (es : List (CameraTurn ℚ)) :
    List Batch :=
  ((es.foldl (CameraSession.turn d) (.start frameInterval)).messages.filter (·.sent)).map batchOf

/-- The targets and the time that the phone has for a turn of the camera: the persons that the
model found in the frame, each of them in the video. -/
structure Shows (d : EdgeTPUPersonDetector ℚ) (b : List (DetectedTarget ℚ) × ℤ)
    (e : CameraTurn ℚ) : Prop where
  timestamp : b.2 = truncate (e.elapsed * 1000)
  found : ∃ dets, detect d 1280 720 e.output = some dets ∧
    List.Forall₂ (Mirrors b.2) (detectionsPayload dets) b.1
  inVideo : ∀ t ∈ b.1, t.Has InVideo

variable {d : EdgeTPUPersonDetector ℚ} {frameInterval : ℤ} {es : List (CameraTurn ℚ)}

/-- All that a camera session sends fits the buffers on the way. -/
theorem cameraBatches_fit
    (hes : ∀ e ∈ es, e.output.Modest ∧ 0 ≤ e.elapsed ∧ e.elapsed < 10 ^ 10) :
    ∀ b ∈ cameraBatches d frameInterval es, Detector.Fits b.1 b.2 := by
  intro b hb
  obtain ⟨m, hm, rfl⟩ := List.mem_map.mp hb
  obtain ⟨e, he, hsends⟩ := Outputs.exists_of_mem
    (CameraSession.run_messages d frameInterval es) (List.mem_of_mem_filter hm)
  exact hsends.fits (hes e he).1 (hes e he).2

/-- A detection that fits the buffers is one of a person in the video. -/
theorem inVideo_of_mirrors {timestampMs : ℤ} {detections : List (Detector.DetectionPayload ℚ)}
    (hfits : Detector.Fits timestampMs detections) {p : Detector.DetectionPayload ℚ}
    (hp : p ∈ detections) {t : DetectedTarget ℚ} (h : Mirrors timestampMs p t) : t.Has InVideo := by
  obtain ⟨hx, hy, hwidth, hheight⟩ := h.box
  obtain ⟨hxmin, hymin, hwmin, hhmin, hright, hbottom⟩ := hfits.box p hp
  refine ⟨⟨by omega, by omega, by omega, by omega, by omega, by omega⟩,
    h.targetType.trans (hfits.objClass p hp), ?_⟩
  rw [h.confidence]
  exact Bridge.receivedConfidence_mem (hfits.confidence p hp)

theorem shows_of_sends {m : SentDetection ℚ} {e : CameraTurn ℚ}
    (hfits : Detector.Fits m.timestampMs m.detections) (h : CameraSession.Sends d e m) :
    Shows d (receivedBatch (batchOf m)) e := by
  obtain ⟨dets, hdets, hdetections, htimestamp⟩ := h
  have hmirrors := receivedBatch_mirrors (b := batchOf m) hfits
  refine ⟨htimestamp, ⟨dets, hdets, hdetections ▸ hmirrors⟩, fun t ht => ?_⟩
  obtain ⟨p, hp, rfl⟩ := List.mem_map.mp ht
  exact inVideo_of_mirrors hfits hp
    (Bridge.receivedTarget_mirrors m.timestampMs (isBox_of_inside (hfits.box p hp)))

variable {config : StreamingConfig} {name : List Char} {lwsPre : ℕ} {conn : Ipc.IPCConnection}
  {fd : ℕ} {bridge : TickingBridge} {ops : List LoopOp} {s : MainLoop}

theorem read_of_camera {offers : List Offer}
    (hs : Forwards config lwsPre ((cameraBatches d frameInterval es).map lineOf) s offers)
    (hconfig : ReadyConfig config name) (hpre : lwsPre ≤ 45)
    (hes : ∀ e ∈ es, e.output.Modest ∧ 0 ≤ e.elapsed ∧ e.elapsed < 10 ^ 10) (now : ℤ) :
    SublistForall₂ (Shows d) (s.ws.written.filterMap fun w => readBatch now w.bytes) es := by
  refine Outputs.sublist ?_ (hs.read_sublist hconfig (cameraBatches_fit hes) hpre now)
  rw [cameraBatches, List.map_map, sublistForall₂_map_left_iff]
  have hmessages := Outputs.sublist (CameraSession.run_messages d frameInterval es)
    (List.filter_sublist (p := (·.sent)))
  exact Outputs.imp hmessages fun m e he hsends =>
    shows_of_sends (hsends.fits (hes e he).1 (hes e he).2) hsends

/-- The detections that phones get are for some turns of the camera, in the same order and none
twice: the persons in the frame of that turn, with boxes in the video. -/
theorem camera_to_phone (hconfig : ReadyConfig config name) (hpre : lwsPre ≤ 45)
    (hes : ∀ e ∈ es, e.output.Modest ∧ 0 ≤ e.elapsed ∧ e.elapsed < 10 ^ 10)
    (haccept : (Ipc.ipcAcceptClient conn (some fd) true).1 = 0)
    (h : Run (Step config lwsPre)
      (init conn fd bridge ((cameraBatches d frameInterval es).map lineOf)) ops s) (now : ℤ) :
    SublistForall₂ (Shows d) (s.ws.written.filterMap fun w => readBatch now w.bytes) es := by
  obtain ⟨offers, hs⟩ := run_forwards (lineOf_fits (cameraBatches_fit hes))
    ⟨[], init_forwards bridge haccept⟩ h
  exact read_of_camera hs hconfig hpre hes now

def cornerTurn : CameraTurn ℚ := ⟨false, true, Detector.corner, 5, true⟩

theorem cornerTurn_modest : ∀ e ∈ [cornerTurn],
    e.output.Modest ∧ 0 ≤ e.elapsed ∧ e.elapsed < 10 ^ 10 := by
  intro e he
  rw [List.mem_singleton.mp he]
  refine ⟨?_, by norm_num [cornerTurn], by norm_num [cornerTurn]⟩
  intro scores hscores
  obtain rfl := Option.mem_some.mp hscores
  refine ⟨by decide, fun q hq => ?_⟩
  rw [List.mem_singleton.mp hq]
  norm_num

/-- The frame is sent, and the phone gets its batch behind the announcement of the stream. -/
theorem cornerTurn_run : ∃ p b ops s, b.2 = [p] ∧ Run (Step Config.configInitDefaults 16)
    (init (Ipc.ipcServerInit (some 3)).2 4 quiet
      ((cameraBatches Detector.mobileNet 3 [cornerTurn]).map lineOf)) ops s ∧
    (s.ws.written.filterMap fun w => readBatch 0 w.bytes) = [receivedBatch b] := by
  have hlength : (cameraBatches Detector.mobileNet 3 [cornerTurn]).map (·.2.length) = [1] := by
    decide +kernel
  obtain ⟨b, hb, hone⟩ := List.map_eq_singleton_iff.mp hlength
  obtain ⟨p, hp⟩ := List.length_eq_one_iff.mp hone
  have hall : ∀ b' ∈ cameraBatches Detector.mobileNet 3 [cornerTurn], Detector.Fits b'.1 b'.2 :=
    cameraBatches_fit cornerTurn_modest
  have hfits : Detector.Fits b.1 b.2 := hall b (by rw [hb]; exact List.mem_singleton_self b)
  obtain ⟨hlf, hnul⟩ := Detector.sendRaw_line (Detector.dumpable_detectionMessage b.1 b.2)
  obtain ⟨hpos, hlen⟩ := Detector.length_sendDetection hfits
  have hready : (Bridge.readyMsg Config.configInitDefaults).length < WebSocket.wsMaxMsgSize :=
    (List.length_take_le 255 _).trans_lt (by decide)
  obtain ⟨ops, -, hgreeted⟩ := greeted_run false 16 (lineOf b) hready
  obtain ⟨ops', t, hserved, hwritten⟩ :=
    served_run 16 ⟨hlf, hnul, hpos, hlen.trans_lt (by decide)⟩ hready
  have hrun : Run (Step Config.configInitDefaults 16) (init (Ipc.ipcServerInit (some 3)).2 4 quiet
      ((cameraBatches Detector.mobileNet 3 [cornerTurn]).map lineOf)) (ops ++ ops') t := by
    rw [hb]
    exact hgreeted.of_guarded.append hserved.of_guarded
  obtain ⟨offers, ht⟩ := run_forwards (lineOf_fits hall)
    ⟨[], init_forwards quiet Ipc.Session.accepted⟩ hrun
  refine ⟨p, b, _, t, hp, hrun, ?_⟩
  have hdata : (t.ws.written.filterMap fun w => readBatch 0 w.bytes) =
      (t.ws.written.map (·.message.data)).filterMap (readBatch 0) := by
    rw [List.filterMap_map]
    refine List.filterMap_congr fun w hw => ?_
    rw [(ht.written_whole configInitDefaults_ready hall (by decide) hw).1]
    rfl
  have hskip : readBatch 0 (Bridge.readyMsg Config.configInitDefaults) = none := by
    rw [readBatch, Bridge.handle_ready configInitDefaults_ready 0]
    rfl
  have hread : readBatch 0 (lineOf b) = some (receivedBatch b) := by
    rw [readBatch, onMessage_line hfits 0]
    rfl
  rw [hdata, hwritten, List.filterMap_cons_none hskip]
  exact List.filterMap_cons_some hread

theorem camera_to_phone_corner : ∃ ops s, Run (Step Config.configInitDefaults 16)
    (init (Ipc.ipcServerInit (some 3)).2 4 quiet
      ((cameraBatches Detector.mobileNet 3 [cornerTurn]).map lineOf)) ops s ∧
    (s.ws.written.filterMap fun w => readBatch 0 w.bytes).length = 1 ∧
    SublistForall₂ (Shows Detector.mobileNet)
      (s.ws.written.filterMap fun w => readBatch 0 w.bytes) [cornerTurn] := by
  obtain ⟨-, b, ops, s, -, hrun, hread⟩ := cornerTurn_run
  refine ⟨ops, s, hrun, congrArg List.length hread, ?_⟩
  exact camera_to_phone configInitDefaults_ready (by decide) cornerTurn_modest Ipc.Session.accepted
    hrun 0

end SnipeIt.Orchestrator
