import SnipeIt.Orchestrator.Detector

/-! # The world around the orchestrator

The process table of the kernel and the detector move between any two system
calls of the orchestrator. A script says how: each system call takes one turn
of it, lets the moves of the turn happen and then gets its answer.
-/

namespace SnipeIt.Orchestrator

/-- A process. The children of the process manager are numbered in the order of their forks; a
foreign process may or may not be signalled by it. -/
inductive Owner where
  | mediamtx (n : ℕ)
  | ffmpeg (n : ℕ)
  | foreign (permitted : Bool)
deriving DecidableEq

inductive Move where
  | exit (pid : ℕ)
  | spawn (pid : ℕ) (permitted : Bool)
  | read
  | sessionEnds
  | leave

/-- One turn of the script: what happens before a system call, the process id a `fork` gets, and
whether a call on the file system says yes. -/
structure Turn where
  moves : List Move
  pid : Option ℕ
  ok : Bool

/-- `exited` tells which FFmpeg processes have exited, `signals` lists the signals sent. Exited
children are reaped by the kernel, since `SIGCHLD` is ignored. -/
structure World where
  owner : ℕ → Option Owner
  mediamtxs : ℕ
  ffmpegs : ℕ
  exited : ℕ → Bool
  signals : List (ℕ × Option Owner)
  wire : Wire
  script : List Turn

/-- What `kill` returns: success, `ESRCH` or another error. -/
inductive KillResult where
  | ok
  | esrch
  | eperm
deriving DecidableEq

inductive Signal where
  | probe
  | term
  | kill
deriving DecidableEq

inductive Child where
  | mediamtx
  | ffmpeg
deriving DecidableEq

/-- How many FFmpeg processes a fork adds. -/
def Child.ffmpegs : Child → ℕ
  | .mediamtx => 0
  | .ffmpeg => 1

namespace World

/-- The process that has `pid` is gone, and the id is free again. -/
def terminate (w : World) (pid : ℕ) : World :=
  { w with
    owner := fun p => if p = pid then none else w.owner p
    exited := fun n => w.owner pid = some (.ffmpeg n) || w.exited n }

def move (w : World) : Move → World
  | .exit pid => w.terminate pid
  | .spawn pid permitted =>
    if 0 < pid ∧ w.owner pid = none then
      { w with owner := fun p => if p = pid then some (.foreign permitted) else w.owner p }
    else w
  | .read => { w with wire := w.wire.read }
  | .sessionEnds => { w with wire := w.wire.sessionEnds }
  | .leave => { w with wire := w.wire.leave }

/-- The turn of the next system call; when the script has ended nothing moves any more. -/
def turn (w : World) : Turn := w.script.headD ⟨[], none, false⟩

def enter (w : World) : World := w.turn.moves.foldl move { w with script := w.script.tail }

def killResult : Option Owner → KillResult
  | none => .esrch
  | some (.foreign false) => .eperm
  | some _ => .ok

/-- `kill(pid, sig)`; a process does not survive `SIGKILL`. -/
def sysKill (w : World) (pid : ℕ) (sig : Signal) : KillResult × World :=
  (killResult (w.enter.owner pid),
    match sig with
    | .probe => w.enter
    | .term => { w.enter with signals := w.enter.signals ++ [(pid, w.enter.owner pid)] }
    | .kill =>
      { (if killResult (w.enter.owner pid) = .ok then w.enter.terminate pid else w.enter) with
        signals := w.enter.signals ++ [(pid, w.enter.owner pid)] })

/-- The process table after a child was forked under a free id. -/
def forked (w : World) (child : Child) (pid : ℕ) : World :=
  match child with
  | .mediamtx =>
    { w with
      owner := fun p => if p = pid then some (.mediamtx w.mediamtxs) else w.owner p
      mediamtxs := w.mediamtxs + 1 }
  | .ffmpeg =>
    { w with
      owner := fun p => if p = pid then some (.ffmpeg w.ffmpegs) else w.owner p
      ffmpegs := w.ffmpegs + 1 }

/-- `fork`; it fails when the kernel has no process id to give. -/
def sysFork (w : World) (child : Child) : Option {pid : ℕ // 0 < pid} × World :=
  match w.turn.pid with
  | none => (none, w.enter)
  | some pid =>
    if h : 0 < pid ∧ w.enter.owner pid = none then
      (some ⟨pid, h.1⟩, w.enter.forked child pid)
    else (none, w.enter)

/-- A call on the file system: `stat` finds a FIFO, `mkfifo` succeeds. -/
def sysFile (w : World) : Bool × World := (w.turn.ok, w.enter)

/-- `sendall` -/
def sysSend (w : World) (cmd : Cmd) : ℤ × World :=
  (if w.enter.wire.connected then 0 else -1, { w.enter with wire := w.enter.wire.send cmd })

/-- Only FFmpeg processes that were forked can have a process id or have exited. -/
structure Valid (w : World) : Prop where
  exited : ∀ n, w.exited n = true → n < w.ffmpegs
  owner : ∀ pid n, w.owner pid = some (.ffmpeg n) → n < w.ffmpegs

/-- Processes exit between `w` and `w'`, and `k` FFmpeg processes are forked. -/
structure Grows (k : ℕ) (w w' : World) : Prop where
  forks : w'.ffmpegs = w.ffmpegs + k
  exited : ∀ n, w.exited n = true → w'.exited n = true
  valid : w.Valid → w'.Valid

structure Passes (k : ℕ) (w w' : World) : Prop where
  grows : Grows k w w'
  wire : Wire.Later w.wire w'.wire

variable {w w' w'' : World}

theorem Grows.refl (w : World) : Grows 0 w w := ⟨rfl, fun _ => id, id⟩

theorem Grows.trans {j k : ℕ} (h : Grows j w w') (h' : Grows k w' w'') : Grows (j + k) w w'' :=
  ⟨by rw [h'.forks, h.forks, Nat.add_assoc], fun n hn => h'.exited n (h.exited n hn),
    h'.valid ∘ h.valid⟩

theorem Passes.refl (w : World) : Passes 0 w w := ⟨.refl w, .refl _⟩

theorem Passes.trans {j k : ℕ} (h : Passes j w w') (h' : Passes k w' w'') :
    Passes (j + k) w w'' :=
  ⟨h.grows.trans h'.grows, h.wire.trans h'.wire⟩

/-- Changing only the wire, the script and the log leaves the processes. -/
theorem grows_of_same (w : World) (wire : Wire) (script : List Turn)
    (signals : List (ℕ × Option Owner)) :
    Grows 0 w { w with wire := wire, script := script, signals := signals } :=
  ⟨rfl, fun _ => id, fun h => ⟨h.exited, h.owner⟩⟩

theorem terminate_passes (w : World) (pid : ℕ) : Passes 0 w (w.terminate pid) := by
  refine ⟨⟨rfl, fun n hn => by simp [terminate, hn], fun h => ⟨fun n hn => ?_, ?_⟩⟩, .refl _⟩
  · simp only [terminate, Bool.or_eq_true, decide_eq_true_eq] at hn
    exact hn.elim (h.owner pid n) (h.exited n)
  · intro p n hp
    simp only [terminate] at hp
    split_ifs at hp
    exact h.owner p n hp

theorem move_passes (w : World) (m : Move) : Passes 0 w (w.move m) := by
  cases m with
  | exit pid => exact w.terminate_passes pid
  | spawn pid permitted =>
    rw [move]
    split_ifs
    · refine ⟨⟨rfl, fun _ => id, fun h => ⟨h.exited, fun p n hp => ?_⟩⟩, .refl _⟩
      dsimp only at hp
      split_ifs at hp
      · cases hp
      · exact h.owner p n hp
    · exact .refl w
  | read => exact ⟨w.grows_of_same _ _ _, Wire.read_later⟩
  | sessionEnds => exact ⟨w.grows_of_same _ _ _, Wire.sessionEnds_later⟩
  | leave => exact ⟨w.grows_of_same _ _ _, Wire.leave_later⟩

theorem moves_passes (moves : List Move) (w : World) : Passes 0 w (moves.foldl move w) := by
  induction moves generalizing w with
  | nil => exact .refl w
  | cons m moves ih => exact (w.move_passes m).trans (ih (w.move m))

theorem enter_passes (w : World) : Passes 0 w w.enter := by
  have hscript : Passes 0 w { w with script := w.script.tail } :=
    ⟨w.grows_of_same _ _ _, .refl _⟩
  exact hscript.trans (moves_passes _ _)

theorem sysFile_passes (w : World) : Passes 0 w w.sysFile.2 := w.enter_passes

theorem signals_passes (w : World) (signals : List (ℕ × Option Owner)) :
    Passes 0 w { w with signals := signals } :=
  ⟨w.grows_of_same _ _ _, .refl _⟩

theorem sysKill_passes (w : World) (pid : ℕ) (sig : Signal) :
    Passes 0 w (w.sysKill pid sig).2 := by
  cases sig with
  | probe => exact w.enter_passes
  | term => exact w.enter_passes.trans (signals_passes _ _)
  | kill =>
    refine Passes.trans (j := 0) ?_ (signals_passes _ _)
    split_ifs
    · exact w.enter_passes.trans (terminate_passes _ _)
    · exact w.enter_passes

theorem forked_passes (w : World) (child : Child) (pid : ℕ) :
    Passes child.ffmpegs w (w.forked child pid) := by
  cases child with
  | mediamtx =>
    refine ⟨⟨rfl, fun _ => id, fun h => ⟨h.exited, fun p n hp => ?_⟩⟩, .refl _⟩
    dsimp only [forked] at hp
    split_ifs at hp
    · cases hp
    · exact h.owner p n hp
  | ffmpeg =>
    refine ⟨⟨rfl, fun _ => id, fun h => ⟨fun n hn => Nat.lt_succ_of_lt (h.exited n hn), ?_⟩⟩,
      .refl _⟩
    intro p n hp
    dsimp only [forked] at hp ⊢
    split_ifs at hp
    · cases hp
      exact Nat.lt_succ_self _
    · exact Nat.lt_succ_of_lt (h.owner p n hp)

theorem sysSend_grows (w : World) (cmd : Cmd) : Grows 0 w (w.sysSend cmd).2 :=
  w.enter_passes.grows.trans (w.enter.grows_of_same _ _ _)

/-- A fork gives a child or leaves the process table to the others. -/
theorem sysFork_cases (w : World) (child : Child) :
    ((w.sysFork child).1 = none ∧ Passes 0 w (w.sysFork child).2) ∨
    ∃ pid, (w.sysFork child).1 = some pid ∧ Passes child.ffmpegs w (w.sysFork child).2 := by
  rw [sysFork]
  split
  · exact .inl ⟨rfl, w.enter_passes⟩
  · next pid _ =>
    by_cases hfree : 0 < pid ∧ w.enter.owner pid = none
    · rw [dif_pos hfree]
      refine .inr ⟨⟨pid, hfree.1⟩, rfl, ?_⟩
      rw [← Nat.zero_add child.ffmpegs]
      exact w.enter_passes.trans (w.enter.forked_passes child pid)
    · rw [dif_neg hfree]
      exact .inl ⟨rfl, w.enter_passes⟩

end World

end SnipeIt.Orchestrator
