import SnipeIt.Orchestrator.Streams

/-! # When `stream_ready` is true

A stream that is not marked as active is started, so the FFmpeg process that is
announced was forked in the same call. A stream that is marked as active is
announced without a look at FFmpeg, which may have exited since.
-/

namespace SnipeIt.Orchestrator
open Support World AppState

/-- The FFmpeg process that was forked last had not exited when the call began. -/
def StreamReady.Truthful (r : StreamReady) : Prop := ∃ n, r.started = n + 1 ∧ r.exited n = false

namespace AppState

/-- A connect that finds a stream marked as active finds its FFmpeg process alive. -/
def LivePipeline (s : AppState) : Event → Prop
  | .call .androidConnect _ => s.pythonConnected = true → s.streamingActive = true →
      ∃ n, s.world.ffmpegs = n + 1 ∧ s.world.exited n = false
  | _ => True

/-- No message is announced, and `k` FFmpeg processes are forked. -/
structure Extends (k : ℕ) (s t : AppState) : Prop where
  ready : t.ready = s.ready
  grows : Grows k s.world t.world

variable {s t u : AppState} {j k : ℕ}

theorem Extends.trans (h : Extends j s t) (h' : Extends k t u) : Extends (j + k) s u :=
  ⟨h'.ready.trans h.ready, h.grows.trans h'.grows⟩

theorem Moved.extends (h : Moved k s t) : Extends k s t := ⟨by rw [h.1], h.2.grows⟩

theorem ipcSendStop_extends (s : AppState) : Extends 0 s s.ipcSendStop :=
  ⟨rfl, s.world.sysSend_grows .stop⟩

theorem ipcSendStart_extends (s : AppState) : Extends 0 s s.ipcSendStart.2 := by
  rw [ipcSendStart]
  split_ifs
  · exact ⟨rfl, s.world.sysSend_grows .start⟩
  · exact ⟨rfl, .refl _⟩

/-- Sending START, or not, does not touch the process manager. -/
theorem ipcSendStart_pm (s : AppState) : s.ipcSendStart.2.pm = s.pm := by
  rw [ipcSendStart]
  split_ifs <;> rfl

/-- The tries of the camera: success comes with a new FFmpeg process. -/
theorem tryCamera_extends (tries : ℕ) (first : Bool) (s : AppState)
    (hrun : s.pm.ffmpeg.running = false) :
    ∃ k, Extends k s (tryCamera tries first s).2 ∧
      ((tryCamera tries first s).1 = true → 0 < k) := by
  induction tries generalizing first s with
  | zero => exact ⟨0, s.ipcSendStop_extends, fun h => nomatch h⟩
  | succ tries ih =>
    rcases startFfmpeg_cases hrun with ⟨hfail, hmoved⟩ | ⟨hok, hmoved⟩
    · rw [tryCamera, if_pos hfail]
      exact ⟨0, hmoved.extends.trans (ipcSendStop_extends _), fun h => nomatch h⟩
    · rw [tryCamera, if_neg (not_not.mpr hok)]
      obtain ⟨sent, hsent⟩ : ∃ sent, sent =
        if first then s.startFfmpeg.2.ipcSendStart else (0, s.startFfmpeg.2) := ⟨_, rfl⟩
      have hext : Extends 1 s sent.2 := by
        refine hmoved.extends.trans (k := 0) ?_
        rw [hsent]
        split_ifs
        · exact ipcSendStart_extends _
        · exact (Moved.refl _).extends
      rw [← hsent]
      by_cases hval : sent.1 ≠ 0
      · simp only [if_pos hval]
        exact ⟨1, hext.trans (stopFfmpeg_moved _).extends, fun h => nomatch h⟩
      · simp only [if_neg hval]
        have hprobe := hext.trans sent.2.isFfmpegRunning_moved.extends
        cases halive : sent.2.isFfmpegRunning.1 with
        | true =>
          exact ⟨1, ⟨hprobe.ready, hprobe.grows⟩, fun _ => Nat.one_pos⟩
        | false =>
          obtain ⟨k, hk, -⟩ := ih false _ (sent.2.isFfmpegRunning_eq.trans halive)
          exact ⟨1 + k, hprobe.trans hk, fun _ => by omega⟩

/-- A start function announces the stream that is active, or forks an FFmpeg process. -/
def Announces (s : AppState) (r : Bool × AppState) : Prop :=
  (s.streamingActive = true ∧ r.1 = true ∧ Extends 0 s r.2) ∨
    (s.streamingActive = false ∧ ∃ k, Extends k s r.2 ∧ (r.1 = true → 0 < k))

theorem startCameraStream_announces (s : AppState) : s.Announces s.startCameraStream := by
  rw [startCameraStream]
  cases hactive : s.streamingActive with
  | true => exact .inl ⟨hactive, rfl, (Moved.refl s).extends⟩
  | false =>
    refine .inr ⟨hactive, ?_⟩
    simp only [Bool.false_eq_true, if_false]
    have hmoved := s.stopRunning_moved.trans (fileCall_moved _)
    split_ifs
    · exact ⟨0, (Moved.refl s).extends, fun h => nomatch h⟩
    · exact ⟨0, hmoved.extends, fun h => nomatch h⟩
    · obtain ⟨k, hk, hpos⟩ := tryCamera_extends 4 true s.stopRunning.fileCall.2
        s.stopRunning_running
      exact ⟨0 + k, hmoved.extends.trans hk, fun h => by have := hpos h; omega⟩

theorem startFileStream_announces (s : AppState) : s.Announces s.startFileStream := by
  rw [startFileStream]
  cases hactive : s.streamingActive with
  | true => exact .inl ⟨hactive, rfl, (Moved.refl s).extends⟩
  | false =>
    refine .inr ⟨hactive, ?_⟩
    simp only [Bool.false_eq_true, if_false]
    have hsent := s.stopRunning_moved.extends.trans s.stopRunning.ipcSendStart_extends
    have hrun : s.stopRunning.ipcSendStart.2.pm.ffmpeg.running = false := by
      rw [ipcSendStart_pm]
      exact s.stopRunning_running
    by_cases hpython : s.pythonConnected = false
    · rw [if_pos hpython]
      exact ⟨0, (Moved.refl s).extends, fun h => nomatch h⟩
    rw [if_neg hpython]
    by_cases hval : s.stopRunning.ipcSendStart.1 ≠ 0
    · rw [if_pos hval]
      exact ⟨0, hsent, fun h => nomatch h⟩
    rw [if_neg hval]
    rcases startFfmpeg_cases hrun with ⟨hfail, hmoved⟩ | ⟨hok, hmoved⟩
    · rw [if_pos hfail]
      exact ⟨0, (hsent.trans hmoved.extends).trans (ipcSendStop_extends _), fun h => nomatch h⟩
    · rw [if_neg (not_not.mpr hok)]
      have hall := hsent.trans hmoved.extends
      exact ⟨1, ⟨hall.ready, hall.grows⟩, fun _ => Nat.one_pos⟩

theorem startStream_announces (s : AppState) : s.Announces s.startStream := by
  have hmoved := s.fileCall_moved.extends
  have hactive : s.fileCall.2.streamingActive = s.streamingActive := rfl
  have hmap {r : Bool × AppState} (h : s.fileCall.2.Announces r) : s.Announces r := by
    rcases h with ⟨hon, hval, hext⟩ | ⟨hoff, k, hext, hpos⟩
    · exact .inl ⟨hon, hval, hmoved.trans hext⟩
    · exact .inr ⟨hoff, 0 + k, hmoved.trans hext, fun h => by have := hpos h; omega⟩
  rw [startStream]
  split_ifs
  · exact hmap (startCameraStream_announces _)
  · exact hmap (startFileStream_announces _)

theorem Announces.extends {r : Bool × AppState} (h : s.Announces r) : ∃ k, Extends k s r.2 := by
  rcases h with ⟨-, -, hext⟩ | ⟨-, k, hext, -⟩
  · exact ⟨0, hext⟩
  · exact ⟨k, hext⟩

/-- What one connect announces is true exactly when the pipeline was alive. -/
theorem onAndroidConnect_ready (hs : s.world.Valid) :
    (∃ k, Grows k s.world s.onAndroidConnect.world) ∧
    ((s.onAndroidConnect.ready = s.ready ∧ s.LivePipeline (.call .androidConnect [])) ∨
      ∃ r, s.onAndroidConnect.ready = s.ready ++ [r] ∧
        (r.Truthful ↔ s.LivePipeline (.call .androidConnect []))) := by
  rw [onAndroidConnect]
  by_cases hpython : s.pythonConnected = false
  · rw [if_pos hpython]
    refine ⟨⟨0, .refl _⟩, .inl ⟨rfl, fun h => ?_⟩⟩
    rw [hpython] at h
    cases h
  rw [if_neg hpython, Bool.not_eq_false] at *
  obtain ⟨started, hstarted⟩ : ∃ r, r = startStream { s with androidConnected := true } := ⟨_, rfl⟩
  have hann := startStream_announces { s with androidConnected := true }
  rw [← hstarted] at hann ⊢
  rcases hann with ⟨hon, hval, hext⟩ | ⟨hoff, k, hext, hpos⟩
  · simp only [hval, if_true]
    refine ⟨⟨0, hext.grows⟩, .inr ⟨⟨started.2.world.ffmpegs, s.world.exited⟩, ?_, ?_⟩⟩
    · simp only [sendStreamReady, hext.ready]
    · have hsame : started.2.world.ffmpegs = s.world.ffmpegs := hext.grows.forks
      rw [hsame]
      exact ⟨fun h _ _ => h, fun h => h hpython hon⟩
  · cases hval : started.1 with
    | false =>
      simp only [hval, Bool.false_eq_true, if_false]
      refine ⟨⟨k, hext.grows⟩, .inl ⟨hext.ready, fun _ hon => ?_⟩⟩
      rw [show s.streamingActive = false from hoff] at hon
      cases hon
    | true =>
      simp only [hval, if_true]
      refine ⟨⟨k, hext.grows⟩, .inr ⟨⟨started.2.world.ffmpegs, s.world.exited⟩, ?_, ?_⟩⟩
      · simp only [sendStreamReady, hext.ready]
      · have hforks : started.2.world.ffmpegs = s.world.ffmpegs + k := hext.grows.forks
        have hnew := hpos hval
        constructor
        · intro _ _ hon
          rw [show s.streamingActive = false from hoff] at hon
          cases hon
        · intro _
          refine ⟨s.world.ffmpegs + k - 1, by simp only [hforks]; omega, ?_⟩
          rw [← Bool.not_eq_true]
          intro hexited
          have := hs.exited _ hexited
          omega

theorem boot_extends (s : AppState) : ∃ k, Extends k s s.boot := by
  rw [boot]
  split_ifs
  · obtain ⟨k, hk⟩ := s.fileCall.2.startCameraStream_announces.extends
    have hall := s.fileCall_moved.extends.trans hk
    exact ⟨0 + k, hall.ready, hall.grows⟩
  · exact ⟨0, s.fileCall_moved.extends.ready, s.fileCall_moved.extends.grows⟩

theorem stopStream_extends (s : AppState) : Extends 0 s s.stopStream := by
  have hstop : Extends 0 s (if s.pythonConnected then s.ipcSendStop else s) := by
    split_ifs
    · exact s.ipcSendStop_extends
    · exact (Moved.refl s).extends
  have hall := hstop.trans (stopFfmpeg_moved _).extends
  exact ⟨hall.ready, hall.grows⟩

theorem onAndroidDisconnect_extends (s : AppState) : Extends 0 s s.onAndroidDisconnect := by
  have hasked : Extends 0 s (fileCall { s with androidConnected := false }).2 :=
    ⟨rfl, s.world.sysFile_passes.grows⟩
  rw [onAndroidDisconnect]
  split_ifs
  · exact hasked.trans (stopStream_extends _)
  · exact hasked

theorem playbackCheck_extends (s : AppState) : Extends 0 s s.playbackCheck := by
  have hprobed : Extends 0 s s.fileCall.2.checkProcesses.isFfmpegRunning.2 :=
    (s.fileCall_moved.trans (checkProcesses_moved _)).extends.trans
      (isFfmpegRunning_moved _).extends
  have hstop := hprobed.trans (ipcSendStop_extends _)
  rcases s.playbackCheck_cases with hsame | hfifo | halive | hended
  · rw [hsame]
    exact (Moved.refl s).extends
  · rw [hfifo]
    exact s.fileCall_moved.extends
  · rw [halive]
    exact hprobed
  · rw [hended]
    split_ifs
    · exact ⟨hstop.ready, hstop.grows⟩
    · exact ⟨hprobed.ready, hprobed.grows⟩

theorem closeClient_extends (s : AppState) : Extends 0 s s.closeClient :=
  ⟨rfl, s.world.grows_of_same _ _ _⟩

theorem pythonLost_extends (s : AppState) : Extends 0 s s.pythonLost := by
  have hlost : Extends 0 s { s.closeClient with pythonConnected := false } :=
    ⟨s.closeClient_extends.ready, s.closeClient_extends.grows⟩
  rw [pythonLost]
  split_ifs
  · have hall := hlost.trans (stopFfmpeg_moved _).extends
    exact ⟨hall.ready, hall.grows⟩
  · exact hlost

theorem stopAtExit_extends (s : AppState) : Extends 0 s s.stopAtExit := by
  rw [stopAtExit]
  split_ifs
  · exact s.ipcSendStop_extends.trans (stopFfmpeg_moved _).extends
  · exact (stopFfmpeg_moved s).extends
  · exact (Moved.refl s).extends

theorem wsCleanup_extends (s : AppState) : Extends 0 s s.wsCleanup := by
  rw [wsCleanup]
  split_ifs
  · exact s.onAndroidDisconnect_extends
  · exact (Moved.refl s).extends

theorem shutdown_extends (s : AppState) : Extends 0 s s.shutdown := by
  have hleft := (s.stopAtExit_extends.trans (closeClient_extends _)).trans (wsCleanup_extends _)
  exact ⟨hleft.ready, hleft.grows.trans (pmCleanup_passes _ _).grows⟩

/-- One step keeps the process table valid and announces at most one stream, truthfully exactly
when the step starts with a live pipeline. -/
theorem step_ready {ev : Event} (hs : s.world.Valid) (hstep : Step s ev t) :
    t.world.Valid ∧ ((t.ready = s.ready ∧ s.LivePipeline ev) ∨
      ∃ r, t.ready = s.ready ++ [r] ∧ (r.Truthful ↔ s.LivePipeline ev)) := by
  obtain ⟨-, rfl⟩ := hstep
  cases ev with
  | move m => exact ⟨(s.world.move_passes m).grows.valid hs, .inl ⟨rfl, trivial⟩⟩
  | call c script =>
    have hfollow := (s.follow_moved script).extends
    have hvalid := hfollow.grows.valid hs
    have hquiet {k : ℕ} {u : AppState} (h : Extends k (s.follow script) u) :
        u.world.Valid ∧ u.ready = s.ready := ⟨h.grows.valid hvalid, h.ready⟩
    cases c with
    | androidConnect =>
      obtain ⟨⟨k, hk⟩, hready⟩ := onAndroidConnect_ready hvalid
      exact ⟨hk.valid hvalid, hready⟩
    | boot =>
      obtain ⟨k, hk⟩ := (s.follow script).boot_extends
      exact ⟨(hquiet hk).1, .inl ⟨(hquiet hk).2, trivial⟩⟩
    | androidDisconnect =>
      have h := hquiet (s.follow script).onAndroidDisconnect_extends
      exact ⟨h.1, .inl ⟨h.2, trivial⟩⟩
    | playbackCheck =>
      have h := hquiet (s.follow script).playbackCheck_extends
      exact ⟨h.1, .inl ⟨h.2, trivial⟩⟩
    | pythonLost =>
      have h := hquiet (s.follow script).pythonLost_extends
      exact ⟨h.1, .inl ⟨h.2, trivial⟩⟩
    | shutdown =>
      have h := hquiet (s.follow script).shutdown_extends
      exact ⟨h.1, .inl ⟨h.2, trivial⟩⟩

variable {loopVideo startFits : Bool} {others : ℕ → Option Bool} {script : List Turn}

theorem init_valid : (init loopVideo startFits others script).world.Valid := by
  have hfresh : Valid ⟨fun pid => (others pid).map .foreign, 0, 0, fun _ => false, [], .init,
      script⟩ := by
    refine ⟨fun n hn => by simp at hn, fun pid n hpid => ?_⟩
    cases h : others pid <;> simp [h] at hpid
  rcases startChild_cases .mediamtx pmInit.mediamtx ⟨fun pid => (others pid).map .foreign, 0, 0,
    fun _ => false, [], .init, script⟩ with ⟨hrun, -⟩ | ⟨-, -, -, hpass⟩ | ⟨-, -, -, hpass⟩
  · cases hrun
  · exact hpass.grows.valid hfresh
  · exact hpass.grows.valid hfresh

end AppState

/-- Truthfulness: in a run of the orchestrator every `stream_ready` announces an FFmpeg process
that had not exited when the app connected, exactly when no app connects while a stream is marked
as active whose FFmpeg process has exited. -/
theorem stream_ready_truthful_iff {loopVideo startFits : Bool} {others : ℕ → Option Bool}
    {script : List Turn} {evs : List Event} {s : AppState}
    (h : Run Step (init loopVideo startFits others script) evs s) :
    (∀ r ∈ s.ready, r.Truthful) ↔
      Run (Guarded LivePipeline Step) (init loopVideo startFits others script) evs s :=
  h.logged_iff_guarded (I := fun s => s.world.Valid) init_valid rfl
    (fun _ _ _ hs hstep => step_ready hs hstep)

/-- A file source: the boot starts nothing, and the app gets a stream when it connects. -/
def fileServed : AppState :=
  (up.apply (.call .boot [])).apply (.call .androidConnect (List.replicate 5 (forkAs 200)))

/-- The one stream of a file source is announced truthfully. -/
theorem file_stream_ready_truthful :
    fileServed.ready.map (·.started) = [1] ∧ ∀ r ∈ fileServed.ready, r.Truthful := by
  have hboot : Step up (.call .boot []) (up.apply (.call .boot [])) := ⟨rfl, rfl⟩
  have hconnect : Step (up.apply (.call .boot []))
      (.call .androidConnect (List.replicate 5 (forkAs 200))) fileServed := ⟨rfl, rfl⟩
  refine ⟨by decide, ?_⟩
  refine (stream_ready_truthful_iff ((Run.single hboot).snoc hconnect)).mpr
    ((Run.single ⟨trivial, hboot⟩).snoc ⟨fun _ hactive => ?_, hconnect⟩)
  exact absurd hactive (by decide)

/-- A camera source: the boot starts FFmpeg as process 200, and then FFmpeg exits. -/
def cameraDied : AppState :=
  (up.apply (.call .boot [calm, calm, calm, forkAs 200])).apply (.move (.exit 200))

/-- The app that connects afterwards is told that the stream is ready. -/
theorem dead_camera_announced :
    Run Step up [.call .boot [calm, calm, calm, forkAs 200], .move (.exit 200),
        .call .androidConnect [calm]] (cameraDied.apply (.call .androidConnect [calm])) ∧
      ∃ r ∈ (cameraDied.apply (.call .androidConnect [calm])).ready, ¬ r.Truthful := by
  have hboot : Step up (.call .boot [calm, calm, calm, forkAs 200])
      (up.apply (.call .boot [calm, calm, calm, forkAs 200])) := ⟨rfl, rfl⟩
  have hexit : Step (up.apply (.call .boot [calm, calm, calm, forkAs 200]))
      (.move (.exit 200)) cameraDied := ⟨trivial, rfl⟩
  have hconnect : Step cameraDied (.call .androidConnect [calm])
      (cameraDied.apply (.call .androidConnect [calm])) := ⟨rfl, rfl⟩
  refine ⟨((Run.single hboot).snoc hexit).snoc hconnect, ?_⟩
  have hready : (cameraDied.apply (.call .androidConnect [calm])).ready =
      [⟨1, cameraDied.world.exited⟩] := rfl
  refine ⟨⟨1, cameraDied.world.exited⟩, by rw [hready]; exact List.mem_singleton_self _, ?_⟩
  rintro ⟨n, hn, halive⟩
  obtain rfl : n = 0 := by simpa using hn
  have hexited : cameraDied.world.exited 0 = true := by decide
  exact absurd (hexited.symm.trans halive) (by decide)

end SnipeIt.Orchestrator
