import SnipeIt.Orchestrator.ProcessManager
import SnipeIt.Support.Run

/-! # Which processes the process manager signals

The calls of the process manager, one system call at a time: between any two of
them processes exit and the kernel gives their ids to others. A signal is only
sent, the process exits later, on `SIGKILL` too.
-/

namespace SnipeIt.Orchestrator
open Support World

namespace ProcessManager

def get (pm : ProcessManager) : Child → ChildStatus
  | .mediamtx => pm.mediamtx
  | .ffmpeg => pm.ffmpeg

def set (pm : ProcessManager) (child : Child) (c : ChildStatus) : ProcessManager :=
  match child with
  | .mediamtx => { pm with mediamtx := c }
  | .ffmpeg => { pm with ffmpeg := c }

@[simp] theorem get_set (pm : ProcessManager) (child : Child) (c : ChildStatus) :
    (pm.set child c).get child = c := by
  cases child <;> rfl

end ProcessManager

/-- How often the exit is polled after `SIGTERM`. -/
def Child.polls : Child → ℕ
  | .mediamtx => 30
  | .ffmpeg => 20

inductive PmCall where
  | start (child : Child)
  | stop (child : Child)
  | isRunning (child : Child)
  | checkProcesses

inductive Pending where
  | fork (child : Child)
  | term (child : Child)
  | poll (child : Child) (left : ℕ)
  | check (child : Child)
  deriving DecidableEq

/-- `pm_check_processes` looks at mediaMTX first. -/
def Child.checkedNext : Child → Option Pending
  | .mediamtx => some (.check .ffmpeg)
  | .ffmpeg => none

/-- A signal other than 0 that was delivered, with the process that had the id, or a fork of an
FFmpeg, with whether one that was forked before had not exited. -/
inductive Deed where
  | signalled (target : Option Owner)
  | forkedFfmpeg (left : Bool)
  deriving DecidableEq

structure Supervision where
  world : World
  pm : ProcessManager
  pending : Option Pending
  /-- Which FFmpeg processes were sent `SIGKILL`. -/
  killed : ℕ → Bool
  history : List Deed

/-- Something around the manager moves, the manager is called, or it makes its next system call;
if that is a `fork` the kernel has an id for it or not. -/
inductive SupervisionAct where
  | move (m : Move)
  | call (c : PmCall)
  | proceed (pid : Option ℕ)

namespace Supervision

/-- An FFmpeg that was forked has not exited. -/
def ffmpegLeft (s : Supervision) : Bool := (List.range s.world.ffmpegs).any (!s.world.exited ·)

/-- What `kill` returns for the id that is stored for a child. -/
def result (s : Supervision) (child : Child) : KillResult :=
  killResult (s.world.owner (s.pm.get child).pid)

/-- Send a signal other than 0 to the id that is stored for a child. -/
def signal (s : Supervision) (child : Child) (sig : Signal) : Supervision :=
  if s.result child = .ok then
    { s with
      killed := fun n =>
        sig = .kill && s.world.owner (s.pm.get child).pid = some (.ffmpeg n) || s.killed n
      history := s.history ++ [.signalled (s.world.owner (s.pm.get child).pid)] }
  else s

/-- The manager's call is over, and it stores no id for the child any more. -/
def forget (s : Supervision) (child : Child) : Supervision :=
  { s with pm := s.pm.set child .absent, pending := none }

def forkChild (s : Supervision) (child : Child) (pid : {pid : ℕ // 0 < pid}) : Supervision :=
  { s with
    world := s.world.forked child pid
    pm := s.pm.set child (.started pid)
    pending := none
    history :=
      match child with
      | .mediamtx => s.history
      | .ffmpeg => s.history ++ [.forkedFfmpeg s.ffmpegLeft] }

/-- `pm_start_*`, `pm_stop_*`, `pm_is_*_running` and `pm_check_processes` up to the first system
call. -/
def enter (s : Supervision) : PmCall → Supervision
  | .start child => if (s.pm.get child).running then s else { s with pending := some (.fork child) }
  | .stop child =>
    if (s.pm.get child).running = false ∨ (s.pm.get child).pid = 0 then s
    else { s with pending := some (.term child) }
  | .isRunning _ | .checkProcesses => { s with pending := some (.check .mediamtx) }

def proceed (s : Supervision) (pid : Option ℕ) : Pending → Supervision
  | .fork child =>
    match pid with
    | none => { s with pending := none }
    | some pid =>
      if h : 0 < pid ∧ s.world.owner pid = none then s.forkChild child ⟨pid, h.1⟩
      else { s with pending := none }
  | .term child =>
    if s.result child = .ok then
      { s.signal child .term with pending := some (.poll child child.polls) }
    else s.forget child
  | .poll child 0 => (s.signal child .kill).forget child
  | .poll child (left + 1) =>
    if s.result child = .esrch then s.forget child
    else { s with pending := some (.poll child left) }
  | .check child =>
    { s with
      pm :=
        if 0 < (s.pm.get child).pid ∧ s.result child = .esrch then s.pm.set child .absent
        else s.pm
      pending := child.checkedNext }

def apply (s : Supervision) : SupervisionAct → Option Supervision
  | .move m => some { s with world := s.world.move m }
  | .call c => if s.pending = none then some (s.enter c) else none
  | .proceed pid => s.pending.map (s.proceed pid)

def Step (s : Supervision) (a : SupervisionAct) (t : Supervision) : Prop := s.apply a = some t

/-- `pm_init`, among foreign processes that may be signalled or not. -/
def init (others : ℕ → Option Bool) : Supervision where
  world := ⟨fun pid => (others pid).map .foreign, 0, 0, fun _ => false, [], .init, []⟩
  pm := pmInit
  pending := none
  killed _ := false
  history := []

end Supervision

/-- A process forked by the manager got the signal, and it had not exited; an FFmpeg is forked
when every other one has exited. -/
def Deed.Owned : Deed → Prop
  | .signalled target => ∃ n, target = some (.mediamtx n) ∨ target = some (.ffmpeg n)
  | .forkedFfmpeg left => left = false

namespace Supervision

def Forks (s : Supervision) (child : Child) (pid : Option ℕ) : Prop :=
  s.pending = some (.fork child) ∧ ∃ p, pid = some p ∧ 0 < p ∧ s.world.owner p = none

/-- The next system call sends a signal to the id that is stored for a child. -/
def Signals (s : Supervision) (child : Child) : Prop :=
  s.pending = some (.term child) ∨ s.pending = some (.poll child 0)

/-- When a child is sent a signal, its id has not been given to a foreign process that may be
signalled, and when an FFmpeg is forked, those that were sent `SIGKILL` have exited. -/
def Fits (s : Supervision) : SupervisionAct → Prop
  | .proceed pid =>
    (∀ child, s.Signals child → s.world.owner (s.pm.get child).pid ≠ some (.foreign true)) ∧
    (s.Forks .ffmpeg pid → ∀ n < s.world.ffmpegs, s.killed n = true → s.world.exited n = true)
  | _ => True

/-- Every FFmpeg that has not exited is the one whose id is stored, or was sent `SIGKILL`. -/
structure Accounted (s : Supervision) : Prop where
  alive : ∀ n < s.world.ffmpegs, s.world.exited n = false →
    ∃ pid, s.world.owner pid = some (.ffmpeg n)
  stored : ∀ pid n, s.world.owner pid = some (.ffmpeg n) → s.killed n = false →
    s.pm.ffmpeg.running = true ∧ pid = s.pm.ffmpeg.pid
  forking : ∀ child, s.pending = some (.fork child) → (s.pm.get child).running = false

namespace Accounted

variable {s : Supervision} {child : Child}

theorem init_accounted (others : ℕ → Option Bool) : (init others).Accounted where
  alive n hn := absurd hn (Nat.not_lt_zero n)
  stored pid n hn := by
    simp only [init, Option.map_eq_some_iff] at hn
    obtain ⟨_, -, hforeign⟩ := hn
    cases hforeign
  forking child hchild := by cases hchild

/-- What happens around the manager forks nothing and reuses only free ids. -/
theorem move (h : s.Accounted) (m : Move) :
    Accounted { s with world := s.world.move m } := by
  cases m with
  | exit pid =>
    refine ⟨fun n hn hleft => ?_, fun p n hp => ?_, h.forking⟩
    · simp only [World.move, terminate, Bool.or_eq_false_iff, decide_eq_false_iff_not] at hleft
      obtain ⟨p, hp⟩ := h.alive n hn hleft.2
      have hne : p ≠ pid := fun heq => hleft.1 (heq ▸ hp)
      exact ⟨p, by simpa [World.move, terminate, hne] using hp⟩
    · simp only [World.move, terminate] at hp
      split_ifs at hp
      exact h.stored p n hp
  | spawn pid permitted =>
    by_cases hfree : 0 < pid ∧ s.world.owner pid = none
    · simp only [World.move, if_pos hfree]
      refine ⟨fun n hn hleft => ?_, fun p n hp => ?_, h.forking⟩
      · obtain ⟨p, hp⟩ := h.alive n hn hleft
        have hne : p ≠ pid := fun heq => by simp [← heq, hp] at hfree
        exact ⟨p, by simpa [hne] using hp⟩
      · dsimp only at hp
        split_ifs at hp
        · cases hp
        · exact h.stored p n hp
    · simpa only [World.move, if_neg hfree] using h
  | _ => exact ⟨h.alive, h.stored, h.forking⟩

theorem of_pending (h : s.Accounted) {pending : Option Pending}
    (hpending : ∀ child, pending = some (.fork child) → (s.pm.get child).running = false) :
    Accounted { s with pending := pending } :=
  ⟨h.alive, h.stored, hpending⟩

theorem signal_world (s : Supervision) (child : Child) (sig : Signal) :
    (s.signal child sig).world = s.world := by
  unfold Supervision.signal
  split_ifs <;> rfl

theorem signal_pm (s : Supervision) (child : Child) (sig : Signal) :
    (s.signal child sig).pm = s.pm := by
  unfold Supervision.signal
  split_ifs <;> rfl

theorem signal_killed {n : ℕ} (howner : s.world.owner (s.pm.get child).pid = some (.ffmpeg n)) :
    (s.signal child .kill).killed n = true := by
  have hok : s.result child = .ok := by rw [Supervision.result, howner]; rfl
  rw [Supervision.signal, if_pos hok]
  simp [howner]

theorem signal (h : s.Accounted) (sig : Signal) : (s.signal child sig).Accounted := by
  unfold Supervision.signal
  split_ifs
  · refine ⟨h.alive, fun pid n hn hkilled => ?_, h.forking⟩
    simp only [Bool.or_eq_false_iff] at hkilled
    exact h.stored pid n hn hkilled.2
  · exact h

/-- An id can be forgotten when no FFmpeg has it that was not sent `SIGKILL`. -/
theorem set_absent (h : s.Accounted)
    (hgone : ∀ n, s.world.owner (s.pm.get child).pid = some (.ffmpeg n) → s.killed n = true)
    {pending : Option Pending}
    (hpending : ∀ other, pending ≠ some (.fork other)) :
    Accounted { s with pm := s.pm.set child .absent, pending := pending } := by
  refine ⟨h.alive, fun pid n hn hkilled => ?_, fun other hother => absurd hother (hpending other)⟩
  cases child with
  | mediamtx => exact h.stored pid n hn hkilled
  | ffmpeg =>
    obtain ⟨-, hpid⟩ := h.stored pid n hn hkilled
    rw [hgone n (hpid ▸ hn)] at hkilled
    cases hkilled

theorem forkChild (h : s.Accounted) (hrun : (s.pm.get child).running = false)
    {pid : {pid : ℕ // 0 < pid}} (hfree : s.world.owner pid = none) :
    (s.forkChild child pid).Accounted := by
  have hkept {p : ℕ} {n : ℕ} (hp : s.world.owner p = some (.ffmpeg n)) : p ≠ pid := by
    rintro rfl
    rw [hfree] at hp
    cases hp
  cases child with
  | mediamtx =>
    refine ⟨fun n hn hleft => ?_, fun p n hp hkilled => ?_, fun other hother => by cases hother⟩
    · obtain ⟨p, hp⟩ := h.alive n hn hleft
      exact ⟨p, by simpa [Supervision.forkChild, forked, hkept hp] using hp⟩
    · simp only [Supervision.forkChild, forked] at hp
      split_ifs at hp
      · cases hp
      · exact h.stored p n hp hkilled
  | ffmpeg =>
    refine ⟨fun n hn hleft => ?_, fun p n hp hkilled => ?_, fun other hother => by cases hother⟩
    · rcases Nat.lt_succ_iff_lt_or_eq.mp hn with hold | rfl
      · obtain ⟨p, hp⟩ := h.alive n hold hleft
        exact ⟨p, by simpa [Supervision.forkChild, forked, hkept hp] using hp⟩
      · exact ⟨pid, by simp [Supervision.forkChild, forked]⟩
    · simp only [Supervision.forkChild, forked] at hp
      split_ifs at hp with heq
      · exact ⟨rfl, heq⟩
      · have hrunning := (h.stored p n hp hkilled).1
        rw [show s.pm.ffmpeg.running = false from hrun] at hrunning
        cases hrunning

/-- The entry that a signal makes is as it should be unless a foreign process has the id. -/
theorem signal_history (s : Supervision) (child : Child) (sig : Signal) :
    ((s.signal child sig).history = s.history ∧
      s.world.owner (s.pm.get child).pid ≠ some (.foreign true)) ∨
    ∃ e, (s.signal child sig).history = s.history ++ [e] ∧
      (e.Owned ↔ s.world.owner (s.pm.get child).pid ≠ some (.foreign true)) := by
  unfold Supervision.signal Supervision.result
  cases howner : s.world.owner (s.pm.get child).pid with
  | none => exact .inl ⟨rfl, Option.some_ne_none _ |>.symm⟩
  | some owner =>
    match owner with
    | .foreign false => exact .inl ⟨rfl, by simp⟩
    | .foreign true => exact .inr ⟨_, rfl, by simp [Deed.Owned]⟩
    | .mediamtx n => exact .inr ⟨_, rfl, by simp [Deed.Owned]⟩
    | .ffmpeg n => exact .inr ⟨_, rfl, by simp [Deed.Owned]⟩

/-- Since no id is stored when an FFmpeg is forked, the only ones left are those that were sent
`SIGKILL`. -/
theorem ffmpegLeft_iff (h : s.Accounted) (hrun : s.pm.ffmpeg.running = false) :
    s.ffmpegLeft = false ↔
      ∀ n < s.world.ffmpegs, s.killed n = true → s.world.exited n = true := by
  simp only [ffmpegLeft, List.any_eq_false, List.mem_range, Bool.not_eq_true, Bool.not_eq_false']
  refine ⟨fun hexited n hn _ => hexited n hn, fun hkilled n hn => ?_⟩
  by_contra hleft
  rw [Bool.not_eq_true] at hleft
  obtain ⟨pid, hpid⟩ := h.alive n hn hleft
  cases hk : s.killed n with
  | true => rw [hkilled n hn hk] at hleft; cases hleft
  | false =>
    rw [(h.stored pid n hpid hk).1] at hrun
    cases hrun

theorem fits_iff_of_signals (hsig : s.Signals child) (pid : Option ℕ) :
    s.Fits (.proceed pid) ↔ s.world.owner (s.pm.get child).pid ≠ some (.foreign true) := by
  refine ⟨fun hfits => hfits.1 child hsig, fun howner => ⟨fun other hother => ?_, fun hforks => ?_⟩⟩
  · have heq : other = child := by
      rcases hsig with hsig | hsig <;> rcases hother with hother | hother <;>
        rw [hsig] at hother <;> cases hother <;> rfl
    exact heq ▸ howner
  · have hfork := hforks.1
    rcases hsig with hsig | hsig <;> rw [hsig] at hfork <;> cases hfork

/-- What one step does to the account and to the history. -/
def Kept (s : Supervision) (a : SupervisionAct) (t : Supervision) : Prop :=
  t.Accounted ∧ ((t.history = s.history ∧ s.Fits a) ∨
    ∃ e, t.history = s.history ++ [e] ∧ (e.Owned ↔ s.Fits a))

theorem fork_kept (h : s.Accounted) (pid : Option ℕ) (hpending : s.pending = some (.fork child)) :
    Kept s (.proceed pid) (s.proceed pid (.fork child)) := by
  have hrun := h.forking child hpending
  have hnosignal (other : Child) : ¬ s.Signals other := by simp [Supervision.Signals, hpending]
  by_cases hforks : s.Forks child pid
  · obtain ⟨-, p, rfl, hpos, hfree⟩ := hforks
    have hproceed : s.proceed (some p) (.fork child) = s.forkChild child ⟨p, hpos⟩ :=
      dif_pos ⟨hpos, hfree⟩
    rw [hproceed]
    refine ⟨h.forkChild hrun hfree, ?_⟩
    cases child with
    | mediamtx =>
      refine .inl ⟨rfl, fun other hother => absurd hother (hnosignal other), fun hffmpeg => ?_⟩
      have hwrong := hffmpeg.1
      rw [hpending] at hwrong
      cases hwrong
    | ffmpeg =>
      refine .inr ⟨_, rfl, ?_⟩
      have hothers := h.ffmpegLeft_iff hrun
      exact hothers.trans ⟨fun hexited => ⟨fun other hother => absurd hother (hnosignal other),
        fun _ => hexited⟩, fun hfits => hfits.2 ⟨hpending, p, rfl, hpos, hfree⟩⟩
  · have hproceed : s.proceed pid (.fork child) = { s with pending := none } := by
      match pid with
      | none => rfl
      | some p => exact dif_neg fun hp => hforks ⟨hpending, p, rfl, hp⟩
    rw [hproceed]
    refine ⟨h.of_pending (by simp),
      .inl ⟨rfl, fun other hother => absurd hother (hnosignal other), fun hffmpeg => ?_⟩⟩
    obtain rfl : child = .ffmpeg := by
      have heq := hffmpeg.1
      rw [hpending] at heq
      cases heq
      rfl
    exact absurd hffmpeg hforks

/-- A signal, after which the call goes on or is over. -/
theorem signal_kept (sig : Signal) {u : Supervision} (pid : Option ℕ) (hsig : s.Signals child)
    (hu : u.Accounted) (hhistory : u.history = (s.signal child sig).history) :
    Kept s (.proceed pid) u := by
  refine ⟨hu, ?_⟩
  rw [hhistory, fits_iff_of_signals hsig]
  exact signal_history s child sig

/-- A system call that is neither a fork nor a signal. -/
theorem quiet_kept {u : Supervision} (pid : Option ℕ) (hnosignal : ∀ other, ¬ s.Signals other)
    (hnofork : ¬ s.Forks .ffmpeg pid) (hu : u.Accounted) (hhistory : u.history = s.history) :
    Kept s (.proceed pid) u :=
  ⟨hu, .inl ⟨hhistory, fun other hother => absurd hother (hnosignal other),
    fun hfork => absurd hfork hnofork⟩⟩

/-- A child that does not get the signal, or is not found by a probe, has no FFmpeg's id. -/
theorem no_ffmpeg_of_result (hresult : s.result child ≠ .ok) {n : ℕ} :
    s.world.owner (s.pm.get child).pid ≠ some (.ffmpeg n) := by
  intro howner
  rw [Supervision.result, howner] at hresult
  exact hresult rfl

theorem proceed_kept (h : s.Accounted) (pid : Option ℕ) {pending : Pending}
    (hpending : s.pending = some pending) : Kept s (.proceed pid) (s.proceed pid pending) := by
  cases pending with
  | fork child => exact h.fork_kept pid hpending
  | term child =>
    by_cases hok : s.result child = .ok
    · rw [Supervision.proceed, if_pos hok]
      exact signal_kept .term pid (.inl hpending) ((h.signal .term).of_pending (by simp)) rfl
    · rw [Supervision.proceed, if_neg hok]
      refine signal_kept .term pid (.inl hpending)
        (h.set_absent (fun n hn => absurd hn (no_ffmpeg_of_result hok)) (by simp)) ?_
      rw [Supervision.signal, if_neg hok]
      rfl
  | poll child left =>
    cases left with
    | zero =>
      refine signal_kept .kill pid (.inr hpending)
        ((h.signal .kill).set_absent (fun n hn => ?_) (by simp)) rfl
      rw [signal_world, signal_pm] at hn
      exact signal_killed hn
    | succ left =>
      have hnosignal (other : Child) : ¬ s.Signals other := by simp [Supervision.Signals, hpending]
      have hnofork : ¬ s.Forks .ffmpeg pid := by simp [Supervision.Forks, hpending]
      by_cases hgone : s.result child = .esrch
      · rw [Supervision.proceed, if_pos hgone]
        have hother : s.result child ≠ .ok := by rw [hgone]; simp
        exact quiet_kept pid hnosignal hnofork
          (h.set_absent (fun n hn => absurd hn (no_ffmpeg_of_result hother)) (by simp)) rfl
      · rw [Supervision.proceed, if_neg hgone]
        exact quiet_kept pid hnosignal hnofork (h.of_pending (by simp)) rfl
  | check child =>
    have hnosignal (other : Child) : ¬ s.Signals other := by simp [Supervision.Signals, hpending]
    have hnofork : ¬ s.Forks .ffmpeg pid := by simp [Supervision.Forks, hpending]
    refine quiet_kept pid hnosignal hnofork ?_ rfl
    have hnext (other : Child) : child.checkedNext ≠ some (.fork other) := by
      cases child <;> simp [Child.checkedNext]
    by_cases hgone : 0 < (s.pm.get child).pid ∧ s.result child = .esrch
    · rw [Supervision.proceed, if_pos hgone]
      have hother : s.result child ≠ .ok := by rw [hgone.2]; simp
      exact h.set_absent (fun n hn => absurd hn (no_ffmpeg_of_result hother)) hnext
    · rw [Supervision.proceed, if_neg hgone]
      exact h.of_pending fun other hother => absurd hother (hnext other)

theorem step {a : SupervisionAct} {t : Supervision} (h : s.Accounted) (hstep : Step s a t) :
    Kept s a t := by
  cases a with
  | move m =>
    cases hstep
    exact ⟨h.move m, .inl ⟨rfl, trivial⟩⟩
  | call c =>
    simp only [Step, apply] at hstep
    split_ifs at hstep
    cases hstep
    cases c with
    | start child =>
      by_cases hrun : (s.pm.get child).running
      · rw [Supervision.enter, if_pos hrun]
        exact ⟨h, .inl ⟨rfl, trivial⟩⟩
      · rw [Supervision.enter, if_neg hrun]
        refine ⟨h.of_pending fun other hother => ?_, .inl ⟨rfl, trivial⟩⟩
        cases hother
        simpa using hrun
    | stop child =>
      by_cases hnone : (s.pm.get child).running = false ∨ (s.pm.get child).pid = 0
      · rw [Supervision.enter, if_pos hnone]
        exact ⟨h, .inl ⟨rfl, trivial⟩⟩
      · rw [Supervision.enter, if_neg hnone]
        exact ⟨h.of_pending (by simp), .inl ⟨rfl, trivial⟩⟩
    | _ => exact ⟨h.of_pending (by simp), .inl ⟨rfl, trivial⟩⟩
  | proceed pid =>
    obtain ⟨pending, hpending, rfl⟩ := Option.map_eq_some_iff.mp hstep
    exact h.proceed_kept pid hpending

end Accounted

/-- The manager signals only processes that it has forked and that have not exited, and forks an
FFmpeg only when the others have exited, exactly in the runs in which a stored id is not given to
a foreign process before a signal and those that were sent `SIGKILL` exit before a fork. -/
theorem child_ownership_iff {others : ℕ → Option Bool} {acts : List SupervisionAct}
    {s : Supervision} (h : Run Step (init others) acts s) :
    (∀ e ∈ s.history, e.Owned) ↔ Run (Guarded Fits Step) (init others) acts s :=
  h.logged_iff_guarded (I := Accounted) (Accounted.init_accounted others) rfl
    fun _ _ _ hs hstep => hs.step hstep

/-- FFmpeg is started and stopped, exits on `SIGTERM`, and is started again under the same id. -/
def restarted : List SupervisionAct :=
  [.call (.start .ffmpeg), .proceed (some 7), .call (.stop .ffmpeg), .proceed none, .move (.exit 7),
    .proceed none, .call (.start .ffmpeg), .proceed (some 7)]

theorem child_ownership_iff_restarted :
    ∃ s, Run Step (init fun _ => none) restarted s ∧
      s.history = [.forkedFfmpeg false, .signalled (some (.ffmpeg 0)), .forkedFfmpeg false] ∧
      Run (Guarded Fits Step) (init fun _ => none) restarted s := by
  have hhistory : (exec apply (init fun _ => none) restarted).map (·.history) =
      some [.forkedFfmpeg false, .signalled (some (.ffmpeg 0)), .forkedFfmpeg false] := by rfl
  obtain ⟨s, hexec, hs⟩ := Option.map_eq_some_iff.mp hhistory
  have hrun : Run Step (init fun _ => none) restarted s := Run.of_exec hexec
  exact ⟨s, hrun, hs, (child_ownership_iff hrun).mp (by simp [hs, Deed.Owned])⟩

/-- FFmpeg exits, and a process of the same user gets its id before the manager stops it. -/
def idReused : List SupervisionAct :=
  [.call (.start .ffmpeg), .proceed (some 7), .move (.exit 7), .move (.spawn 7 true),
    .call (.stop .ffmpeg), .proceed none]

/-- FFmpeg does not exit on `SIGTERM`, and not at once on `SIGKILL`. -/
def killedLate : List SupervisionAct :=
  [.call (.start .ffmpeg), .proceed (some 7), .call (.stop .ffmpeg)] ++
    List.replicate 22 (.proceed none) ++ [.call (.start .ffmpeg), .proceed (some 8)]

theorem child_ownership_lost :
    (∃ s, Run Step (init fun _ => none) idReused s ∧
      s.history = [.forkedFfmpeg false, .signalled (some (.foreign true))] ∧
      ¬ ∀ e ∈ s.history, e.Owned) ∧
    ∃ s, Run Step (init fun _ => none) killedLate s ∧
      s.history = [.forkedFfmpeg false, .signalled (some (.ffmpeg 0)),
        .signalled (some (.ffmpeg 0)), .forkedFfmpeg true] ∧ ¬ ∀ e ∈ s.history, e.Owned := by
  have hreused : (exec apply (init fun _ => none) idReused).map (·.history) =
      some [.forkedFfmpeg false, .signalled (some (.foreign true))] := by rfl
  have hlate : (exec apply (init fun _ => none) killedLate).map (·.history) =
      some [.forkedFfmpeg false, .signalled (some (.ffmpeg 0)), .signalled (some (.ffmpeg 0)),
        .forkedFfmpeg true] := by rfl
  obtain ⟨s, hexec, hs⟩ := Option.map_eq_some_iff.mp hreused
  obtain ⟨t, hexec', ht⟩ := Option.map_eq_some_iff.mp hlate
  exact ⟨⟨s, Run.of_exec hexec, hs, by simp [hs, Deed.Owned]⟩,
    t, Run.of_exec hexec', ht, by simp [ht, Deed.Owned]⟩

end Supervision

end SnipeIt.Orchestrator
