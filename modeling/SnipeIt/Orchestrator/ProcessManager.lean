import SnipeIt.Orchestrator.World

/-! # The process manager (`process_manager.c`)

mediaMTX and FFmpeg are forked, stopped and watched in the same way. Children
are reaped by the kernel, so the manager looks for one by probing its process
id, which a foreign process may have got in the meantime.
-/

namespace SnipeIt.Orchestrator
open World

/-- What the manager stores about one child; the process id is 0 if there is none. -/
structure ChildStatus where
  pid : ℕ
  running : Bool
  consistent : running = true ↔ 0 < pid

namespace ChildStatus

def absent : ChildStatus := ⟨0, false, by simp⟩

def started (pid : {pid : ℕ // 0 < pid}) : ChildStatus := ⟨pid, true, by simp [pid.2]⟩

end ChildStatus

structure ProcessManager where
  mediamtx : ChildStatus
  ffmpeg : ChildStatus

def startChild (child : Child) (c : ChildStatus) (w : World) : ℤ × ChildStatus × World :=
  if c.running then (0, c, w)
  else match w.sysFork child with
    | (none, w') => (-1, c, w')
    | (some pid, w') => (0, .started pid, w')

/-- Probe a process until it is gone; after the last probe, kill it. -/
def awaitExit (pid : ℕ) : ℕ → World → World
  | 0, w => (w.sysKill pid .kill).2
  | polls + 1, w =>
    if (w.sysKill pid .probe).1 = .esrch then (w.sysKill pid .probe).2
    else awaitExit pid polls (w.sysKill pid .probe).2

/-- Terminate a child and wait for its exit, unless there is none. -/
def stopChild (polls : ℕ) (c : ChildStatus) (w : World) : ChildStatus × World :=
  if c.running = false ∨ c.pid = 0 then (c, w)
  else (.absent, if (w.sysKill c.pid .term).1 = .ok
    then awaitExit c.pid polls (w.sysKill c.pid .term).2 else (w.sysKill c.pid .term).2)

def checkChild (c : ChildStatus) (w : World) : ChildStatus × World :=
  if 0 < c.pid then
    (if (w.sysKill c.pid .probe).1 = .esrch then .absent else c, (w.sysKill c.pid .probe).2)
  else (c, w)

def pmInit : ProcessManager := ⟨.absent, .absent⟩

def pmStartMediamtx (pm : ProcessManager) (w : World) : ℤ × ProcessManager × World :=
  ((startChild .mediamtx pm.mediamtx w).1,
    { pm with mediamtx := (startChild .mediamtx pm.mediamtx w).2.1 },
    (startChild .mediamtx pm.mediamtx w).2.2)

def pmStartFfmpeg (pm : ProcessManager) (w : World) : ℤ × ProcessManager × World :=
  ((startChild .ffmpeg pm.ffmpeg w).1,
    { pm with ffmpeg := (startChild .ffmpeg pm.ffmpeg w).2.1 },
    (startChild .ffmpeg pm.ffmpeg w).2.2)

/-- `pm_stop_mediamtx` waits up to three seconds. -/
def pmStopMediamtx (pm : ProcessManager) (w : World) : ProcessManager × World :=
  ({ pm with mediamtx := (stopChild 30 pm.mediamtx w).1 }, (stopChild 30 pm.mediamtx w).2)

/-- `pm_stop_ffmpeg` waits up to two seconds. -/
def pmStopFfmpeg (pm : ProcessManager) (w : World) : ProcessManager × World :=
  ({ pm with ffmpeg := (stopChild 20 pm.ffmpeg w).1 }, (stopChild 20 pm.ffmpeg w).2)

def pmCheckProcesses (pm : ProcessManager) (w : World) : ProcessManager × World :=
  (⟨(checkChild pm.mediamtx w).1, (checkChild pm.ffmpeg (checkChild pm.mediamtx w).2).1⟩,
    (checkChild pm.ffmpeg (checkChild pm.mediamtx w).2).2)

def pmIsFfmpegRunning (pm : ProcessManager) (w : World) : Bool × ProcessManager × World :=
  ((pmCheckProcesses pm w).1.ffmpeg.running, pmCheckProcesses pm w)

def pmCleanup (pm : ProcessManager) (w : World) : ProcessManager × World :=
  pmStopMediamtx (pmStopFfmpeg pm w).1 (pmStopFfmpeg pm w).2

/-! ## What the operations do to the processes -/

variable (child : Child) (c : ChildStatus) (pm : ProcessManager) (w : World)

/-- A child is running already, could not be forked, or was forked. -/
theorem startChild_cases :
    (c.running = true ∧ startChild child c w = (0, c, w)) ∨
    (c.running = false ∧ (startChild child c w).1 = -1 ∧ (startChild child c w).2.1 = c ∧
      Passes 0 w (startChild child c w).2.2) ∨
    (c.running = false ∧ (startChild child c w).1 = 0 ∧
      (startChild child c w).2.1.running = true ∧
      Passes child.ffmpegs w (startChild child c w).2.2) := by
  rw [startChild]
  cases hrun : c.running with
  | true => exact .inl ⟨rfl, rfl⟩
  | false =>
    rcases w.sysFork_cases child with ⟨hnone, hpass⟩ | ⟨pid, hsome, hpass⟩
    · generalize w.sysFork child = r at hnone hpass
      obtain ⟨got, w'⟩ := r
      obtain rfl : got = none := hnone
      exact .inr (.inl ⟨rfl, rfl, rfl, hpass⟩)
    · generalize w.sysFork child = r at hsome hpass
      obtain ⟨got, w'⟩ := r
      obtain rfl : got = some pid := hsome
      exact .inr (.inr ⟨rfl, rfl, rfl, hpass⟩)

theorem awaitExit_passes (pid polls : ℕ) : Passes 0 w (awaitExit pid polls w) := by
  induction polls generalizing w with
  | zero => exact w.sysKill_passes pid .kill
  | succ polls ih =>
    rw [awaitExit]
    split_ifs
    · exact w.sysKill_passes pid .probe
    · exact (w.sysKill_passes pid .probe).trans (ih _)

theorem stopChild_passes (polls : ℕ) : Passes 0 w (stopChild polls c w).2 := by
  rw [stopChild]
  split_ifs
  · exact .refl w
  · exact (w.sysKill_passes c.pid .term).trans (awaitExit_passes _ _ _)
  · exact w.sysKill_passes c.pid .term

theorem stopChild_running (polls : ℕ) : (stopChild polls c w).1.running = false := by
  by_cases h : c.running = false ∨ c.pid = 0
  · rw [stopChild, if_pos h]
    rcases h with hrun | hpid
    · exact hrun
    · rw [Bool.eq_false_iff, ne_eq, c.consistent]
      omega
  · rw [stopChild, if_neg h]
    rfl

theorem checkChild_passes : Passes 0 w (checkChild c w).2 := by
  by_cases h : 0 < c.pid
  · rw [checkChild, if_pos h]
    exact w.sysKill_passes c.pid .probe
  · rw [checkChild, if_neg h]
    exact .refl w

theorem pmCheckProcesses_passes : Passes 0 w (pmCheckProcesses pm w).2 :=
  (checkChild_passes pm.mediamtx w).trans (checkChild_passes pm.ffmpeg _)

theorem pmStopFfmpeg_passes : Passes 0 w (pmStopFfmpeg pm w).2 := stopChild_passes pm.ffmpeg w 20

theorem pmStopFfmpeg_running : (pmStopFfmpeg pm w).1.ffmpeg.running = false :=
  stopChild_running pm.ffmpeg w 20

theorem pmCleanup_passes : Passes 0 w (pmCleanup pm w).2 :=
  (pmStopFfmpeg_passes pm w).trans (stopChild_passes _ _ 30)

end SnipeIt.Orchestrator
