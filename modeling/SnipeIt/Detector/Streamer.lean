import SnipeIt.Ipc.CommandStream
import SnipeIt.Orchestrator.Commands
import SnipeIt.Support.Outputs

/-! # The main loop of the detector (`person_streamer.py`)

The loop waits for a command and opens a session on START. A session looks for a
command in every turn and ends on STOP. On the bytes that the server writes, this
does what the detector does that the orchestrator is modelled with.
-/

namespace SnipeIt.Detector
open Support Ipc Orchestrator

/-- Where `main` is: in its own loop, in a session, or behind its end. -/
inductive Phase where
  | idle
  | session (r : Request)
  | gone

structure Streamer where
  reading : Reading Json
  phase : Phase
  /-- The sessions that have been opened. -/
  sessions : List Request
  /-- `send_detection` has failed once. -/
  sendFailed : Bool

/-- `wait_for_command` of the loop and `check_for_command` of a session with what they return, the
other ends of a session, and the end of the process, whether it is an exception or not. -/
inductive StreamerAct where
  | wait (result : Option Json)
  | check (result : Option Json)
  | sessionEnds
  | sendFails
  | leave

namespace Streamer

def start (recvs : List Recv) : Streamer := ⟨.start recvs, .idle, [], false⟩

def dispatch (s : Streamer) : Option Json → Streamer
  | none => { s with phase := .gone }
  | some cmd =>
    if truthy cmd = false ∨ isObject cmd = false then { s with phase := .gone }
    else if isCommand cmd "start" then
      match requestOf cmd with
      | some r => { s with phase := .session r, sessions := s.sessions ++ [r] }
      | none => { s with phase := .gone }
    else s

/-- What a session makes of the result. -/
def look (s : Streamer) : Option Json → Streamer
  | none => s
  | some cmd =>
    if truthy cmd = false then s
    else if isObject cmd = false then { s with phase := .gone }
    else if isCommand cmd "stop" then { s with phase := .idle }
    else s

/-- `recv` has no timeout in the loop: it returns nothing only if the connection has ended. -/
def Step (s : Streamer) (a : StreamerAct) (t : Streamer) : Prop :=
  match a with
  | .wait result => s.phase = .idle ∧ s.reading.client.connected = true ∧
      ∃ reading, Reading.Step Json.loads s.reading result reading ∧
        (result = none → reading.client.connected = false) ∧
        t = dispatch { s with reading := reading } result
  | .check result => (∃ r, s.phase = .session r) ∧ s.reading.client.connected = true ∧
      ∃ reading, Reading.Step Json.loads s.reading result reading ∧
        t = look { s with reading := reading } result
  | .sessionEnds => (∃ r, s.phase = .session r) ∧ t = { s with phase := .idle }
  | .sendFails => (∃ r, s.phase = .session r) ∧
      t = { s with
        reading := { s.reading with client := { s.reading.client with connected := false } }
        sendFailed := true }
  | .leave => t = { s with phase := .gone }

end Streamer

/-! ## The detector of the orchestrator -/

/-- What the orchestrator knows of a command. -/
def kind : ServerCommand → Cmd
  | .start _ => .start
  | .stop => .stop

def Phase.mode : Phase → Mode
  | .idle => .idle
  | .session _ => .session
  | .gone => .gone

def starts (cmds : List ServerCommand) : List StartArgs :=
  cmds.filterMap fun
    | .start a => some a
    | .stop => none

theorem starts_append (cmds cmds' : List ServerCommand) :
    starts (cmds ++ cmds') = starts cmds ++ starts cmds' := List.filterMap_append

/-- The detector has read `done` and not yet `rest`, as the wire says, and has opened a session for
every START that it has read. -/
structure Follows (commands : List (Command Json.loads)) (done rest : List ServerCommand)
    (s : Streamer) (w : Wire) : Prop where
  reads : s.reading.Reads commands ∨
    (s.sendFailed = true ∧ s.reading.client.connected = false)
  understood : List.Forall₂ Understood (done ++ rest) (commands.map (·.value))
  returned : s.reading.returned.length = done.length
  unread : w.unread = rest.map kind
  mode : w.mode = s.phase.mode
  sessions : List.Forall₂ Request.Fulfils s.sessions (starts done)
  sound : w.Sound

/-- Some of the commands have been read, and the others have not. -/
def Obedient (commands : List (Command Json.loads)) (cmds : List ServerCommand) (s : Streamer) :
    Prop :=
  ∃ done rest w, done ++ rest = cmds ∧ Follows commands done rest s w

variable {commands : List (Command Json.loads)} {done rest : List ServerCommand}
  {s t : Streamer} {w : Wire}

/-- While the client is connected, a call returns the next command. -/
theorem Follows.next (h : Follows commands done rest s w)
    (hconnected : s.reading.client.connected = true) {result : Option Json}
    {reading : Reading Json} (hcall : Reading.Step Json.loads s.reading result reading) :
    reading.Reads commands ∧
      (result = none ∧ reading.returned.length = done.length ∨
        ∃ c rest' cmd, result = some cmd ∧ rest = c :: rest' ∧ Understood c cmd ∧
          reading.returned.length = (done ++ [c]).length) := by
  have hreads := (h.reads.resolve_right fun hlost => by simp [hconnected] at hlost).step hcall
  refine ⟨hreads, ?_⟩
  have hreturned := hcall.2
  cases result with
  | none => exact .inl ⟨rfl, by simpa [hreturned] using h.returned⟩
  | some cmd =>
    obtain ⟨later, hlater⟩ := hreads.inOrder
    have hall := h.understood
    rw [← hlater, hreturned, List.append_assoc] at hall
    have hrest := List.forall₂_drop_append _ _ _ hall
    rw [h.returned, List.drop_left, Option.toList_some, List.singleton_append] at hrest
    obtain ⟨c, rest', hc, -, hcons⟩ := List.forall₂_cons_right_iff.mp hrest
    exact .inr ⟨c, rest', cmd, rfl, hcons, hc, by simp [hreturned, h.returned]⟩

theorem read_eq {c : ServerCommand} {rest' : List ServerCommand}
    (hunread : w.unread = (c :: rest').map kind) (hgone : w.mode ≠ .gone) :
    w.read.unread = rest'.map kind ∧ w.read.mode = w.mode.next (kind c) := by
  rw [List.map_cons] at hunread
  simp only [Wire.read, hunread, if_neg hgone, and_self]

theorem stop_not_start {cmd : Json} (h : isCommand cmd "stop") : ¬ isCommand cmd "start" :=
  fun h' => absurd (isCommand_unique h h') (by decide)

/-- The loop opens a session for START, with what it says. -/
theorem dispatch_understood {c : ServerCommand} {cmd : Json} (h : Understood c cmd)
    (hidle : s.phase = .idle) :
    ∃ opened, s.dispatch (some cmd) = { s with
        phase := (s.dispatch (some cmd)).phase
        sessions := s.sessions ++ opened } ∧
      (s.dispatch (some cmd)).phase.mode = Mode.next .idle (kind c) ∧
      List.Forall₂ Request.Fulfils opened (starts [c]) := by
  obtain ⟨hobject, htruthy⟩ := h.object
  have hvalid : ¬ (truthy cmd = false ∨ isObject cmd = false) := by simp [hobject, htruthy]
  cases h with
  | start r hcmd hrequest hfulfils =>
    refine ⟨[r], ?_, ?_, .cons hfulfils .nil⟩ <;>
      simp only [Streamer.dispatch, if_neg hvalid, if_pos hcmd, hrequest]
    rfl
  | stop hcmd =>
    refine ⟨[], ?_, ?_, .nil⟩ <;>
      simp only [Streamer.dispatch, if_neg hvalid, if_neg (stop_not_start hcmd), List.append_nil]
    rw [hidle]
    rfl

theorem wait_follows (h : Follows commands done rest s w) {result : Option Json}
    (hstep : s.Step (.wait result) t) :
    Obedient commands (done ++ rest) t := by
  obtain ⟨hidle, hconnected, reading, hcall, -, rfl⟩ := hstep
  obtain ⟨hreads, hnone | ⟨c, rest', cmd, rfl, rfl, hunderstood, hlen⟩⟩ := h.next hconnected hcall
  · obtain ⟨rfl, hlen⟩ := hnone
    exact ⟨done, rest, w.leave, rfl,
      .inl hreads, h.understood, hlen, h.unread, rfl, h.sessions, Wire.leave_sound h.sound⟩
  · obtain ⟨opened, hdispatch, hphase, hopened⟩ :=
      dispatch_understood (s := { s with reading := reading }) hunderstood hidle
    have hmode : w.mode = .idle := h.mode.trans (congrArg Phase.mode hidle)
    obtain ⟨hunread, hnext⟩ := read_eq h.unread (by simp [hmode])
    refine ⟨done ++ [c], rest', w.read, by simp, ?_⟩
    rw [hdispatch]
    refine ⟨.inl hreads, by simpa using h.understood, hlen, hunread, ?_, ?_,
      Wire.read_sound h.sound⟩
    · rw [hnext, hmode, hphase]
    · rw [starts_append]
      exact List.rel_append h.sessions hopened

theorem check_follows (h : Follows commands done rest s w) {result : Option Json}
    (hstep : s.Step (.check result) t) :
    Obedient commands (done ++ rest) t := by
  obtain ⟨⟨r, hsession⟩, hconnected, reading, hcall, rfl⟩ := hstep
  have hmode : w.mode = .session := h.mode.trans (congrArg Phase.mode hsession)
  obtain ⟨hreads, hnone | ⟨c, rest', cmd, rfl, rfl, hunderstood, hlen⟩⟩ := h.next hconnected hcall
  · obtain ⟨rfl, hlen⟩ := hnone
    exact ⟨done, rest, w, rfl,
      .inl hreads, h.understood, hlen, h.unread, h.mode, h.sessions, h.sound⟩
  · have hstop := h.sound.session_reads_stop hmode h.unread
    obtain ⟨hunread, hnext⟩ := read_eq h.unread (by simp [hmode])
    obtain ⟨hobject, htruthy⟩ := hunderstood.object
    cases hunderstood with
    | start => cases hstop
    | stop hcmd =>
      refine ⟨done ++ [.stop], rest', w.read, by simp, ?_⟩
      have hlook : Streamer.look { s with reading := reading } (some cmd) =
          { s with reading := reading, phase := .idle } := by
        simp [Streamer.look, hobject, htruthy, hcmd]
      rw [hlook]
      refine ⟨.inl hreads, by simpa using h.understood, hlen, hunread, ?_, ?_,
        Wire.read_sound h.sound⟩
      · rw [hnext, hmode]
        rfl
      · have hnone : starts [.stop] = [] := rfl
        rw [starts_append, hnone, List.append_nil]
        exact h.sessions

theorem step_follows (h : Follows commands done rest s w) {a : StreamerAct} (hstep : s.Step a t) :
    Obedient commands (done ++ rest) t := by
  cases a with
  | wait result => exact wait_follows h hstep
  | check result => exact check_follows h hstep
  | sessionEnds =>
    obtain ⟨⟨r, hsession⟩, rfl⟩ := hstep
    have hmode : w.mode = .session := h.mode.trans (congrArg Phase.mode hsession)
    have hends : w.sessionEnds = { w with mode := .idle } := by rw [Wire.sessionEnds, if_pos hmode]
    refine ⟨done, rest, w.sessionEnds, rfl,
      h.reads, h.understood, h.returned, ?_, ?_, h.sessions, Wire.sessionEnds_sound h.sound⟩
    · rw [hends, h.unread]
    · rw [hends]
      rfl
  | sendFails =>
    obtain ⟨-, rfl⟩ := hstep
    exact ⟨done, rest, w, rfl,
      .inr ⟨rfl, rfl⟩, h.understood, h.returned, h.unread, h.mode, h.sessions, h.sound⟩
  | leave =>
    cases hstep
    exact ⟨done, rest, w.leave, rfl,
      h.reads, h.understood, h.returned, h.unread, rfl, h.sessions, Wire.leave_sound h.sound⟩

/-- If the connection ends and not because of a message of the detector, everything was read. -/
theorem Follows.all_read (h : Follows commands done rest s w)
    (hclosed : s.reading.client.connected = false) (hsent : s.sendFailed = false) : rest = [] := by
  have hreads := h.reads.resolve_right fun hlost => by simp [hsent] at hlost
  rcases hreads with ⟨cmds', body, hlive, -⟩ | ⟨-, -, hreturned⟩
  · rw [hlive.connected] at hclosed
    cases hclosed
  · have hlen := h.understood.length_eq
    rw [← hreturned, h.returned, List.length_append] at hlen
    exact List.length_eq_zero_iff.mp (by omega)

/-! ## The commands of the orchestrator -/

section

variable {loopVideo startFits : Bool} {others : ℕ → Option Bool} {script : List Orchestrator.Turn}
  {evs : List Event} {o : AppState} {args : StartArgs} {conn : IPCConnection}
  {msgs : List (List UInt8)} {body : List Recv} {acts : List StreamerAct}

/-- The START and STOP of the orchestrator, where every START has the same arguments. -/
def commandOf (args : StartArgs) : Cmd → ServerCommand
  | .start => .start args
  | .stop => .stop

theorem kind_commandOf (args : StartArgs) (cmd : Cmd) : kind (commandOf args cmd) = cmd := by
  cases cmd <;> rfl

theorem starts_commandOf (args : StartArgs) (cmds : List Cmd) :
    starts (cmds.map (commandOf args)) = List.replicate (cmds.count .start) args := by
  induction cmds with
  | nil => rfl
  | cons cmd cmds ih =>
    cases cmd with
    | start =>
      rw [List.count_cons_self, List.replicate_succ, ← ih]
      rfl
    | stop =>
      rw [List.count_cons_of_ne (by decide), ← ih]
      rfl

end

def twoSessions : AppState :=
  (((up.apply (.call .boot [])).apply
    (.call .androidConnect (List.replicate 5 (forkAs 200)))).apply
    (.call .androidDisconnect [])).apply (.call .androidConnect (List.replicate 5 (forkAs 300)))

def someArgs : StartArgs := ⟨"/tmp/a.mp4".toList, someSeconds, someRate, 1, 20⟩

def twoStarts : List ServerCommand := [.start someArgs, .stop, .start someArgs]

end SnipeIt.Detector
