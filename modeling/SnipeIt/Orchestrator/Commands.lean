import SnipeIt.Orchestrator.Streams

/-! # START and STOP

A stream that is active was asked for by the last command; otherwise a
connected detector was last told to stop, or was never told anything. So START
is only ever sent to a detector that has no other START before it in the
socket, and no session finds one.
-/

namespace SnipeIt.Orchestrator
open Support World

namespace AppState

/-- The last command was START. -/
def Asked (s : AppState) : Prop :=
  s.world.wire.Sound ∧ s.world.wire.sent.getLast? = some .start

/-- The last command that reached the socket was not START, as long as it is connected. -/
def Quiet (s : AppState) : Prop := s.world.wire.Sound ∧ s.world.wire.Silent

/-- The flags agree with the last command while the main loop runs. -/
structure Commanded (s : AppState) : Prop where
  sound : s.world.wire.Sound
  active : s.phase ≠ .stopped → s.streamingActive = true →
    s.world.wire.sent.getLast? = some .start
  silent : s.pythonConnected = true → s.streamingActive = false → s.world.wire.Silent

variable {s t : AppState} {k : ℕ}

theorem Moved.asked (h : Moved k s t) (hs : s.Asked) : t.Asked :=
  ⟨h.2.wire.sound hs.1, by rw [h.2.wire.sent]; exact hs.2⟩

theorem Moved.quiet (h : Moved k s t) (hs : s.Quiet) : t.Quiet :=
  ⟨h.2.wire.sound hs.1, h.2.wire.silent hs.2⟩

theorem startFfmpeg_moved (s : AppState) : ∃ k, Moved k s s.startFfmpeg.2 := by
  rcases startChild_cases .ffmpeg s.pm.ffmpeg s.world with
    ⟨-, heq⟩ | ⟨-, -, -, hpass⟩ | ⟨-, -, -, hpass⟩
  · refine ⟨0, rfl, ?_⟩
    show Passes 0 s.world (startChild .ffmpeg s.pm.ffmpeg s.world).2.2
    rw [heq]
    exact .refl _
  · exact ⟨0, rfl, hpass⟩
  · exact ⟨1, rfl, hpass⟩

theorem ipcSendStop_quiet (h : s.world.wire.Sound) : s.ipcSendStop.Quiet :=
  ⟨Wire.send_sound (s.world.enter_passes.wire.sound h) (nomatch ·), Wire.send_stop_silent⟩

/-- A START that is accepted is the last command; one that fails changes nothing. -/
theorem ipcSendStart_spec (h : s.Quiet) :
    (s.ipcSendStart.1 = 0 → s.ipcSendStart.2.Asked) ∧
      (s.ipcSendStart.1 ≠ 0 → s.ipcSendStart.2.Quiet) := by
  have henter := s.world.enter_passes.wire
  rw [ipcSendStart]
  split_ifs
  · have hsound : (s.world.enter.wire.send .start).Sound :=
      Wire.send_sound (henter.sound h.1) (fun _ => henter.silent h.2)
    refine ⟨fun hval => ⟨hsound, ?_⟩, fun hval => ⟨hsound, fun hconn => ?_⟩⟩
    · simp only [sysSend] at hval
      split_ifs at hval with hconn
      exact Wire.send_start_last hconn
    · simp only [sysSend] at hval
      split_ifs at hval with hup
      · exact absurd rfl hval
      · have hdown : (s.world.enter.wire.send .start) = s.world.enter.wire := by
          rw [Wire.send, if_neg hup]
        simp only [sysSend, hdown] at hconn
        exact absurd hconn hup
  · exact ⟨fun (hval : (-1 : ℤ) = 0) => absurd hval (by decide), fun _ => h⟩

/-- Only the process manager and the world have changed. -/
def Frame (s t : AppState) : Prop := t = { s with pm := t.pm, world := t.world }

theorem Frame.trans {u : AppState} (h : Frame s t) (h' : Frame t u) : Frame s u := by
  rw [Frame] at h h' ⊢
  rw [h', h]

theorem Moved.frame (h : Moved k s t) : Frame s t := h.1

theorem ipcSendStart_frame (s : AppState) : Frame s s.ipcSendStart.2 := by
  rw [ipcSendStart]
  split_ifs <;> rfl

theorem ipcSendStop_frame (s : AppState) : Frame s s.ipcSendStop := rfl

/-- A start function marks the stream as active exactly when it succeeds, and then the last
command was START; otherwise a connected detector was told to stop. -/
structure Outcome (s : AppState) (r : Bool × AppState) : Prop where
  frame : r.2 = { s with pm := r.2.pm, world := r.2.world, streamingActive := r.1 }
  asked : r.1 = true → r.2.Asked
  quiet : r.1 = false → r.2.world.wire.Sound ∧ (s.pythonConnected = true → r.2.world.wire.Silent)

theorem failed_outcome (hactive : s.streamingActive = false) (hframe : Frame s t) (ht : t.Quiet) :
    s.Outcome (false, t) := by
  refine ⟨?_, (nomatch ·), fun _ => ⟨ht.1, fun _ => ht.2⟩⟩
  rw [Frame] at hframe
  rw [← hactive]
  exact hframe

theorem started_outcome (hframe : Frame s t) (ht : t.Asked) :
    s.Outcome (true, { t with streamingActive := true }) := by
  refine ⟨?_, fun _ => ht, (nomatch ·)⟩
  rw [Frame] at hframe
  rw [hframe]

theorem Outcome.of_frame {r : Bool × AppState} (h : t.Outcome r) (hframe : Frame s t) :
    s.Outcome r := by
  rw [Frame] at hframe
  have hpython : t.pythonConnected = s.pythonConnected := by rw [hframe]
  refine ⟨?_, h.asked, fun hval => ?_⟩
  · rw [h.frame, hframe]
  · exact ⟨(h.quiet hval).1, fun hp => (h.quiet hval).2 (hpython.trans hp)⟩

/-- The tries of the camera: START was sent before all but the first. -/
theorem tryCamera_outcome (tries : ℕ) (first : Bool) (s : AppState)
    (hactive : s.streamingActive = false) (hfirst : first = true → s.Quiet)
    (hlater : first = false → s.Asked) : s.Outcome (tryCamera tries first s) := by
  induction tries generalizing first s with
  | zero =>
    have hsound : s.world.wire.Sound := by
      cases first with
      | true => exact (hfirst rfl).1
      | false => exact (hlater rfl).1
    exact failed_outcome hactive s.ipcSendStop_frame (ipcSendStop_quiet hsound)
  | succ tries ih =>
    obtain ⟨k, hmoved⟩ := s.startFfmpeg_moved
    have hstarted : Frame s s.startFfmpeg.2 := hmoved.1
    by_cases hfork : s.startFfmpeg.1 ≠ 0
    · have hsound : s.startFfmpeg.2.world.wire.Sound := by
        cases first with
        | true => exact (hmoved.quiet (hfirst rfl)).1
        | false => exact (hmoved.asked (hlater rfl)).1
      rw [tryCamera, if_pos hfork]
      exact failed_outcome hactive (hstarted.trans (ipcSendStop_frame _))
        (ipcSendStop_quiet hsound)
    · rw [tryCamera, if_neg hfork]
      obtain ⟨sent, hsent⟩ : ∃ sent, sent =
        if first then s.startFfmpeg.2.ipcSendStart else (0, s.startFfmpeg.2) := ⟨_, rfl⟩
      have hspec : Frame s sent.2 ∧ (sent.1 = 0 → sent.2.Asked) ∧ (sent.1 ≠ 0 → sent.2.Quiet) := by
        cases first with
        | true =>
          have hspec := ipcSendStart_spec (hmoved.quiet (hfirst rfl))
          rw [hsent]
          exact ⟨hstarted.trans (ipcSendStart_frame _), hspec⟩
        | false =>
          rw [hsent]
          exact ⟨hstarted, fun _ => hmoved.asked (hlater rfl), fun h => absurd rfl h⟩
      obtain ⟨hframe, hasked, hquiet⟩ := hspec
      rw [← hsent]
      by_cases hval : sent.1 ≠ 0
      · simp only [if_pos hval]
        exact failed_outcome hactive (hframe.trans (stopFfmpeg_moved _).1)
          ((stopFfmpeg_moved _).quiet (hquiet hval))
      · simp only [if_neg hval]
        have hprobed := hframe.trans sent.2.isFfmpegRunning_moved.1
        have hstill := sent.2.isFfmpegRunning_moved.asked (hasked (not_not.mp hval))
        cases halive : sent.2.isFfmpegRunning.1 with
        | true => exact started_outcome hprobed hstill
        | false =>
          refine (ih false _ ?_ (nomatch ·) (fun _ => hstill)).of_frame hprobed
          rw [hprobed]
          exact hactive

theorem start_outcome (h : s.Commanded) (hrun : s.phase ≠ .stopped) {body : Bool × AppState}
    (hbody : s.streamingActive = false → s.Quiet → s.Outcome body) :
    s.Outcome (if s.streamingActive then (true, s)
      else if s.pythonConnected = false then (false, s) else body) := by
  cases hactive : s.streamingActive with
  | true =>
    refine ⟨?_, fun _ => ⟨h.sound, h.active hrun hactive⟩, (nomatch ·)⟩
    simp only [if_true, ← hactive]
  | false =>
    simp only [Bool.false_eq_true, if_false]
    by_cases hpython : s.pythonConnected = false
    · rw [if_pos hpython]
      refine ⟨by simp only [← hactive], (nomatch ·), fun _ => ⟨h.sound, fun hp => ?_⟩⟩
      rw [hpython] at hp
      cases hp
    · rw [if_neg hpython]
      exact hbody hactive ⟨h.sound, h.silent (by simpa using hpython) hactive⟩

theorem startCameraStream_outcome (h : s.Commanded) (hrun : s.phase ≠ .stopped) :
    s.Outcome s.startCameraStream := by
  refine start_outcome h hrun fun hactive hquiet => ?_
  have hmoved := s.stopRunning_moved.trans (fileCall_moved _)
  have hquiet' := hmoved.quiet hquiet
  by_cases hfifo : s.stopRunning.fileCall.1 = false
  · rw [if_pos hfifo]
    exact failed_outcome hactive hmoved.frame hquiet'
  · rw [if_neg hfifo]
    refine (tryCamera_outcome 4 true _ ?_ (fun _ => hquiet') (nomatch ·)).of_frame hmoved.frame
    rw [hmoved.1]
    exact hactive

theorem startFileStream_outcome (h : s.Commanded) (hrun : s.phase ≠ .stopped) :
    s.Outcome s.startFileStream := by
  refine start_outcome h hrun fun hactive hquiet => ?_
  have hspec := ipcSendStart_spec (s.stopRunning_moved.quiet hquiet)
  have hsent := s.stopRunning_moved.frame.trans (ipcSendStart_frame _)
  by_cases hval : s.stopRunning.ipcSendStart.1 ≠ 0
  · simp only [if_pos hval]
    exact failed_outcome hactive hsent (hspec.2 hval)
  · simp only [if_neg hval]
    obtain ⟨k, hfork⟩ := s.stopRunning.ipcSendStart.2.startFfmpeg_moved
    have hasked := hfork.asked (hspec.1 (not_not.mp hval))
    by_cases hfail : s.stopRunning.ipcSendStart.2.startFfmpeg.1 ≠ 0
    · rw [if_pos hfail]
      exact failed_outcome hactive ((hsent.trans hfork.frame).trans (ipcSendStop_frame _))
        (ipcSendStop_quiet hasked.1)
    · rw [if_neg hfail]
      exact started_outcome (hsent.trans hfork.frame) hasked

/-- A start function keeps the flags in agreement with the last command. -/
theorem Outcome.commanded {r : Bool × AppState} (h : s.Outcome r) : r.2.Commanded := by
  have hactive : r.2.streamingActive = r.1 := by rw [h.frame]
  have hpython : r.2.pythonConnected = s.pythonConnected := by rw [h.frame]
  cases hval : r.1 with
  | true =>
    have hasked := h.asked hval
    refine ⟨hasked.1, fun _ _ => hasked.2, fun _ hoff => ?_⟩
    rw [hactive, hval] at hoff
    cases hoff
  | false =>
    have hquiet := h.quiet hval
    refine ⟨hquiet.1, fun _ hon => ?_, fun hp _ => hquiet.2 (hpython.symm.trans hp)⟩
    rw [hactive, hval] at hon
    cases hon

theorem Moved.commanded (h : Moved k s t) (hs : s.Commanded) : t.Commanded := by
  refine ⟨h.2.wire.sound hs.sound, ?_, ?_⟩
  · rw [h.2.wire.sent, h.1]
    exact hs.active
  · intro hpython hactive
    rw [h.1] at hpython hactive
    exact h.2.wire.silent (hs.silent hpython hactive)

theorem startStream_commanded (h : s.Commanded) (hrun : s.phase ≠ .stopped) :
    s.startStream.2.Commanded := by
  have hfile := s.fileCall_moved.commanded h
  rw [startStream]
  split_ifs
  · exact (startCameraStream_outcome hfile hrun).commanded
  · exact (startFileStream_outcome hfile hrun).commanded

/-- Stopping a stream that was asked for leaves a connected detector told to stop. -/
theorem stop_quiet (h : s.world.wire.Sound) :
    (if s.pythonConnected then s.ipcSendStop else s).world.wire.Sound ∧
      (s.pythonConnected = true →
        (if s.pythonConnected then s.ipcSendStop else s).world.wire.Silent) := by
  split_ifs with hpython
  · exact ⟨(ipcSendStop_quiet h).1, fun _ => (ipcSendStop_quiet h).2⟩
  · exact ⟨h, fun hp => absurd hp hpython⟩

theorem stop_python (s : AppState) :
    (if s.pythonConnected then s.ipcSendStop else s).pythonConnected = s.pythonConnected := by
  split_ifs <;> rfl

theorem stopStream_commanded (h : s.world.wire.Sound) : s.stopStream.Commanded := by
  have hstop := stop_quiet h
  have hmoved := stopFfmpeg_moved (if s.pythonConnected then s.ipcSendStop else s)
  refine ⟨hmoved.2.wire.sound hstop.1, fun _ => (nomatch ·), fun hpython _ => ?_⟩
  exact hmoved.2.wire.silent (hstop.2 (s.stop_python.symm.trans hpython))

theorem onAndroidConnect_commanded (h : s.Commanded) (hrun : s.phase ≠ .stopped) :
    s.onAndroidConnect.Commanded := by
  have hflag : Commanded { s with androidConnected := true } := ⟨h.sound, h.active, h.silent⟩
  have hstart := startStream_commanded hflag hrun
  rw [onAndroidConnect]
  by_cases hpython : s.pythonConnected = false
  · rw [if_pos hpython]
    exact hflag
  · rw [if_neg hpython]
    dsimp only
    split_ifs
    · exact ⟨hstart.sound, hstart.active, hstart.silent⟩
    · exact hstart

theorem onAndroidDisconnect_commanded (h : s.Commanded) : s.onAndroidDisconnect.Commanded := by
  have hflag : Commanded { s with androidConnected := false } := ⟨h.sound, h.active, h.silent⟩
  have hasked := (fileCall_moved _).commanded hflag
  rw [onAndroidDisconnect]
  split_ifs
  · exact stopStream_commanded hasked.sound
  · exact hasked

theorem playbackCheck_commanded (h : s.Commanded) : s.playbackCheck.Commanded := by
  have hprobed := ((s.fileCall_moved.trans (checkProcesses_moved _)).trans
    (isFfmpegRunning_moved _)).commanded h
  rcases s.playbackCheck_cases with hsame | hfifo | halive | hended
  · rwa [hsame]
  · rw [hfifo]
    exact s.fileCall_moved.commanded h
  · rw [halive]
    exact hprobed
  · obtain ⟨hsound, hsilent⟩ := stop_quiet hprobed.sound
    rw [hended]
    refine ⟨hsound, fun _ hactive => ?_, fun hpython _ => ?_⟩
    · cases hactive
    · exact hsilent ((stop_python _).symm.trans hpython)

theorem boot_commanded (h : s.Commanded) (hrun : s.phase ≠ .stopped) : s.boot.Commanded := by
  have hfile := s.fileCall_moved.commanded h
  have hserving {u : AppState} (hu : u.Commanded) (hphase : u.phase ≠ .stopped) :
      Commanded { u with phase := .serving } :=
    ⟨hu.sound, fun _ => hu.active hphase, hu.silent⟩
  rw [boot]
  split_ifs
  · have hstart := startCameraStream_outcome hfile hrun
    refine hserving hstart.commanded ?_
    rw [hstart.frame]
    exact hrun
  · exact hserving hfile hrun

/-- A closed socket keeps the detector's history, whatever is still sent into it. -/
def Disconnected (s : AppState) : Prop :=
  s.world.wire.Sound ∧ s.world.wire.connected = false

theorem Moved.disconnected (h : Moved k s t) (hs : s.Disconnected) : t.Disconnected := by
  refine ⟨h.2.wire.sound hs.1, ?_⟩
  rw [← Bool.not_eq_true]
  intro hconn
  exact absurd (h.2.wire.connected hconn) (by rw [hs.2]; decide)

theorem ipcSendStop_disconnected (h : s.Disconnected) : s.ipcSendStop.Disconnected := by
  have henter := s.world.enter_passes.wire
  have hoff : ¬ s.world.enter.wire.connected = true := by
    intro hconn
    exact absurd (henter.connected hconn) (by rw [h.2]; decide)
  have hsame : s.ipcSendStop.world.wire = s.world.enter.wire := by
    simp only [ipcSendStop, sysSend]
    rw [Wire.send, if_neg hoff]
  rw [Disconnected, hsame]
  exact ⟨henter.sound h.1, Bool.eq_false_iff.mpr hoff⟩

theorem onAndroidDisconnect_disconnected (h : s.Disconnected) :
    s.onAndroidDisconnect.Disconnected := by
  have hflag : Disconnected { s with androidConnected := false } := h
  have hasked := (fileCall_moved _).disconnected hflag
  have hstop (u : AppState) (hu : u.Disconnected) : u.stopStream.Disconnected := by
    have hquiet : (if u.pythonConnected then u.ipcSendStop else u).Disconnected := by
      split_ifs
      · exact ipcSendStop_disconnected hu
      · exact hu
    exact (stopFfmpeg_moved _).disconnected hquiet
  rw [onAndroidDisconnect]
  split_ifs
  · exact hstop _ hasked
  · exact hasked

theorem closeClient_disconnected (h : s.world.wire.Sound) : s.closeClient.Disconnected :=
  ⟨Wire.close_sound h, rfl⟩

theorem pythonLost_commanded (h : s.Commanded) : s.pythonLost.Commanded := by
  have hlost : Disconnected { s.closeClient with pythonConnected := false } :=
    closeClient_disconnected h.sound
  have hmoved := (stopFfmpeg_moved _).disconnected hlost
  rw [pythonLost]
  dsimp only
  split_ifs with hactive
  · exact ⟨hmoved.1, fun _ => (nomatch ·), (nomatch ·)⟩
  · exact ⟨hlost.1, fun _ hon => absurd hon hactive, (nomatch ·)⟩

theorem stopAtExit_sound (h : s.world.wire.Sound) : s.stopAtExit.world.wire.Sound := by
  rw [stopAtExit]
  split_ifs
  · exact (stopFfmpeg_moved _).2.wire.sound (ipcSendStop_quiet h).1
  · exact (stopFfmpeg_moved _).2.wire.sound h
  · exact h

theorem wsCleanup_disconnected (h : s.Disconnected) : s.wsCleanup.Disconnected := by
  rw [wsCleanup]
  split_ifs
  · exact onAndroidDisconnect_disconnected h
  · exact h

/-- After the shutdown nothing is asked for any more. -/
theorem shutdown_commanded (h : s.Commanded) : s.shutdown.Commanded := by
  have hleft := wsCleanup_disconnected (closeClient_disconnected (stopAtExit_sound h.sound))
  have hclean := (pmCleanup_passes s.stopAtExit.closeClient.wsCleanup.pm
    s.stopAtExit.closeClient.wsCleanup.world).wire
  refine ⟨hclean.sound hleft.1, fun hrun => absurd rfl hrun, fun _ _ hconn => ?_⟩
  exact absurd (hclean.connected hconn) (by rw [hleft.2]; decide)

theorem step_commanded {ev : Event} (h : s.Commanded) (hstep : Step s ev t) : t.Commanded := by
  obtain ⟨henabled, rfl⟩ := hstep
  cases ev with
  | move m =>
    have hmove : Moved 0 s (s.apply (.move m)) := ⟨rfl, s.world.move_passes m⟩
    exact hmove.commanded h
  | call c script =>
    have hfollow := (s.follow_moved script).commanded h
    cases c with
    | boot =>
      have hrun : s.phase = .booting := henabled
      exact boot_commanded hfollow (by rw [follow, hrun]; decide)
    | androidConnect =>
      have hrun : s.phase = .serving := henabled
      exact onAndroidConnect_commanded hfollow (by rw [follow, hrun]; decide)
    | androidDisconnect => exact onAndroidDisconnect_commanded hfollow
    | playbackCheck => exact playbackCheck_commanded hfollow
    | pythonLost => exact pythonLost_commanded hfollow
    | shutdown => exact shutdown_commanded hfollow

theorem init_commanded (loopVideo startFits : Bool) (others : ℕ → Option Bool)
    (script : List Turn) : (init loopVideo startFits others script).Commanded := by
  have hpass : Wire.Later Wire.init (init loopVideo startFits others script).world.wire := by
    rcases startChild_cases .mediamtx pmInit.mediamtx ⟨fun pid => (others pid).map .foreign, 0, 0,
      fun _ => false, [], .init, script⟩ with ⟨hrun, -⟩ | ⟨-, -, -, hpass⟩ | ⟨-, -, -, hpass⟩
    · cases hrun
    · exact hpass.wire
    · exact hpass.wire
  refine ⟨hpass.sound Wire.init_sound, fun _ => (nomatch ·), fun _ _ _ => ?_⟩
  rw [hpass.sent]
  simp [Wire.init]

end AppState

/-- The protocol of START and STOP: in every run there is a STOP between two STARTs, a stream
that is active was asked for by the last command, and every START the detector reads is read by
its main loop and opens a session. -/
theorem start_stop_protocol {loopVideo startFits : Bool} {others : ℕ → Option Bool}
    {script : List Turn} {evs : List Event} {s : AppState}
    (h : Run AppState.Step (.init loopVideo startFits others script) evs s) :
    (∀ before between after,
      s.world.wire.sent = before ++ .start :: (between ++ .start :: after) → .stop ∈ between) ∧
    (s.phase ≠ .stopped → s.streamingActive = true →
      s.world.wire.sent.getLast? = some .start) ∧
    ∀ r ∈ s.world.wire.reads, r.cmd = .start → r.before = .idle ∧ r.after = .session := by
  have hs := h.invariant (AppState.init_commanded _ _ _ _)
    (fun _ _ _ hs hstep => AppState.step_commanded hs hstep)
  exact ⟨fun _ _ _ => hs.sound.stop_between, hs.active, hs.sound.served⟩

/-- A file source: the app connects, the detector reads START, the app leaves and comes back. -/
def reconnected : AppState :=
  (((((up.apply (.call .boot [])).apply
    (.call .androidConnect (List.replicate 5 (forkAs 200)))).apply (.move .read)).apply
    (.call .androidDisconnect [])).apply
    (.call .androidConnect (List.replicate 5 (forkAs 300)))).apply (.move .read)

/-- The second connect sends a second START, with a STOP before it. -/
theorem reconnected_commands :
    reconnected.world.wire.sent = [.start, .stop, .start] ∧
      reconnected.world.wire.reads.length = 2 ∧
      ∀ r ∈ reconnected.world.wire.reads, r.cmd = .start →
        r.before = .idle ∧ r.after = .session := by
  have hrun : Run AppState.Step up [.call .boot [],
      .call .androidConnect (List.replicate 5 (forkAs 200)), .move .read,
      .call .androidDisconnect [], .call .androidConnect (List.replicate 5 (forkAs 300)),
      .move .read] reconnected :=
    .cons ⟨rfl, rfl⟩ (.cons ⟨rfl, rfl⟩ (.cons ⟨trivial, rfl⟩ (.cons ⟨rfl, rfl⟩
      (.cons ⟨rfl, rfl⟩ (.single ⟨trivial, rfl⟩)))))
  exact ⟨by decide, by decide, (start_stop_protocol hrun).2.2⟩

def bootedAndStopped : AppState :=
  (up.apply (.call .boot [calm, calm, calm, forkAs 200])).apply (.call .shutdown [])

/-- The shutdown sends a STOP and leaves the stream marked as active. -/
theorem stopped_but_active :
    Run AppState.Step up [.call .boot [calm, calm, calm, forkAs 200], .call .shutdown []]
      bootedAndStopped ∧
    bootedAndStopped.world.wire.sent = [.start, .stop] ∧
    ¬ (bootedAndStopped.streamingActive = true →
      bootedAndStopped.world.wire.sent.getLast? = some .start) :=
  ⟨.cons ⟨rfl, rfl⟩ (.single ⟨rfl, rfl⟩), by decide, by decide⟩

end SnipeIt.Orchestrator
