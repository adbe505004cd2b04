import Mathlib.Data.List.Chain
import Mathlib.Tactic.Common

/-! # The detector (`person_streamer.py`)

The detector is told to start and to stop by commands on a socket. Its main
loop waits for a command and opens a session on START; a session looks for a
command between two frames, ends on STOP and drops every other command.
-/

namespace SnipeIt.Orchestrator

inductive Cmd where
  | start
  | stop
deriving DecidableEq

/-- Where the detector is: in `wait_for_command` of its main loop, in a session, or gone. -/
inductive Mode where
  | idle
  | session
  | gone
deriving DecidableEq

def Mode.next : Mode → Cmd → Mode
  | .idle, .start => .session
  | .session, .stop => .idle
  | mode, _ => mode

structure Read where
  before : Mode
  cmd : Cmd
  after : Mode

/-- The socket and the detector: the commands sent, those not read yet, and the reads. -/
structure Wire where
  connected : Bool
  sent : List Cmd
  unread : List Cmd
  mode : Mode
  reads : List Read

namespace Wire

def init : Wire := ⟨true, [], [], .idle, []⟩

/-- The detector reads the next command, if there is one. -/
def read (w : Wire) : Wire :=
  match w.unread with
  | [] => w
  | cmd :: rest =>
    if w.mode = .gone then w
    else { w with
      unread := rest
      mode := w.mode.next cmd
      reads := w.reads ++ [⟨w.mode, cmd, w.mode.next cmd⟩] }

/-- A session ends by itself: the file is over, or the camera cannot be opened. -/
def sessionEnds (w : Wire) : Wire := if w.mode = .session then { w with mode := .idle } else w

def leave (w : Wire) : Wire := { w with connected := false, mode := .gone }

def close (w : Wire) : Wire := { w with connected := false }

/-- `sendall` on the socket, which succeeds while both ends are open. -/
def send (w : Wire) (cmd : Cmd) : Wire :=
  if w.connected then { w with sent := w.sent ++ [cmd], unread := w.unread ++ [cmd] } else w

/-- No START follows a START, the reads are a prefix of what was sent, a session was opened by
the last command read, and every START was read by the main loop. -/
structure Sound (w : Wire) : Prop where
  alternates : w.sent.IsChain fun a b => a = .start → b = .stop
  prefix_eq : w.reads.map Read.cmd ++ w.unread = w.sent
  opened : w.mode = .session → (w.reads.map Read.cmd).getLast? = some .start
  served : ∀ r ∈ w.reads, r.cmd = .start → r.before = .idle ∧ r.after = .session

/-- The orchestrator has not asked for a session that is still to be stopped, as far as a
connected detector can know. -/
def Silent (w : Wire) : Prop := w.connected = true → w.sent.getLast? ≠ some .start

variable {w : Wire}

theorem init_sound : init.Sound :=
  ⟨.nil, rfl, (nomatch ·), fun _ hr => absurd hr List.not_mem_nil⟩

theorem Sound.session_reads_stop (h : w.Sound) (hmode : w.mode = .session) {cmd : Cmd}
    {rest : List Cmd} (hunread : w.unread = cmd :: rest) : cmd = .stop := by
  have hchain := h.alternates
  rw [← h.prefix_eq, hunread, List.isChain_append] at hchain
  exact hchain.2.2 _ (h.opened hmode) cmd (by simp) rfl

theorem read_sound (h : w.Sound) : w.read.Sound := by
  cases hunread : w.unread with
  | nil => simpa only [read, hunread] using h
  | cons cmd rest =>
    by_cases hgone : w.mode = .gone
    · simpa only [read, hunread, hgone, if_true] using h
    · simp only [read, hunread, if_neg hgone]
      refine ⟨h.alternates, ?_, ?_, ?_⟩
      · rw [← h.prefix_eq, hunread, List.map_append, List.append_assoc]
        rfl
      · intro hsession
        rw [List.map_append, List.map_singleton, List.getLast?_concat]
        cases hmode : w.mode with
        | idle =>
          cases cmd with
          | start => rfl
          | stop => simp [hmode, Mode.next] at hsession
        | session =>
          have hstop := h.session_reads_stop hmode hunread
          simp [hmode, hstop, Mode.next] at hsession
        | gone => exact absurd hmode hgone
      · intro r hr hstart
        rcases List.mem_append.mp hr with hold | hnew
        · exact h.served r hold hstart
        · rw [List.mem_singleton.mp hnew] at hstart ⊢
          have hcmd : cmd = .start := hstart
          cases hmode : w.mode with
          | idle => exact ⟨rfl, by rw [hcmd]; rfl⟩
          | session =>
            have hstop := h.session_reads_stop hmode hunread
            rw [hcmd] at hstop
            cases hstop
          | gone => exact absurd hmode hgone

theorem sessionEnds_sound (h : w.Sound) : w.sessionEnds.Sound := by
  rw [sessionEnds]
  split_ifs
  · exact ⟨h.alternates, h.prefix_eq, (nomatch ·), h.served⟩
  · exact h

theorem leave_sound (h : w.Sound) : w.leave.Sound :=
  ⟨h.alternates, h.prefix_eq, (nomatch ·), h.served⟩

theorem close_sound (h : w.Sound) : w.close.Sound :=
  ⟨h.alternates, h.prefix_eq, h.opened, h.served⟩

/-- A STOP may always be sent, a START only to a silent detector. -/
theorem send_sound (h : w.Sound) {cmd : Cmd} (hcmd : cmd = .start → w.Silent) :
    (w.send cmd).Sound := by
  rw [send]
  split_ifs with hconn
  · refine ⟨?_, ?_, h.opened, h.served⟩
    · refine h.alternates.append (.singleton cmd) ?_
      intro a ha b hb hstart
      simp only [List.head?_cons, Option.mem_def, Option.some.injEq] at hb
      subst b
      cases cmd with
      | stop => rfl
      | start =>
        rw [Option.mem_def, hstart] at ha
        exact absurd ha (hcmd rfl hconn)
    · rw [← h.prefix_eq, List.append_assoc]
  · exact h

theorem send_stop_silent : (w.send .stop).Silent := by
  rw [send]
  split_ifs with hconn
  · intro _
    simp
  · exact fun h => absurd h hconn

theorem send_start_last (h : w.connected = true) :
    (w.send .start).sent.getLast? = some .start := by
  rw [send, if_pos h]
  simp

/-- The detector moves on its own; the orchestrator has sent nothing. -/
structure Later (w w' : Wire) : Prop where
  sent : w'.sent = w.sent
  connected : w'.connected = true → w.connected = true
  sound : w.Sound → w'.Sound

namespace Later

variable {w' w'' : Wire}

theorem refl (w : Wire) : Later w w := ⟨rfl, id, id⟩

theorem trans (h : Later w w') (h' : Later w' w'') : Later w w'' :=
  ⟨h'.sent.trans h.sent, h.connected ∘ h'.connected, h'.sound ∘ h.sound⟩

theorem silent (h : Later w w') (hs : w.Silent) : w'.Silent := by
  intro hconn
  rw [h.sent]
  exact hs (h.connected hconn)

end Later

theorem read_later : Later w w.read := by
  refine ⟨?_, ?_, read_sound⟩
  · rw [read]
    split
    · rfl
    · split_ifs <;> rfl
  · rw [read]
    split
    · exact id
    · split_ifs <;> exact id

theorem sessionEnds_later : Later w w.sessionEnds := by
  refine ⟨?_, ?_, sessionEnds_sound⟩ <;> rw [sessionEnds] <;> split_ifs
  · rfl
  · rfl
  · exact id
  · exact id

theorem leave_later : Later w w.leave := ⟨rfl, (nomatch ·), leave_sound⟩

theorem Sound.stop_between (h : w.Sound) {before between after : List Cmd}
    (hsent : w.sent = before ++ .start :: (between ++ .start :: after)) : .stop ∈ between := by
  have hchain := h.alternates
  rw [hsent] at hchain
  have htail := hchain.right_of_append
  cases between with
  | nil =>
    rw [List.nil_append, List.isChain_cons_cons] at htail
    exact absurd (htail.1 rfl) (by decide)
  | cons cmd between =>
    rw [List.cons_append, List.isChain_cons_cons] at htail
    rw [htail.1 rfl]
    exact List.mem_cons_self

end Wire

end SnipeIt.Orchestrator
