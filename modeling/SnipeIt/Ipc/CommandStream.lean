import SnipeIt.Ipc.CommandReader
import SnipeIt.Ipc.StartCommand
import SnipeIt.Support.JsonText

/-! # The stream of commands (`unix_socket.c` to `person_streamer.py`)

The server writes START and STOP one behind the other. `main` of the detector takes
the arguments of a session out of what it reads.
-/

namespace SnipeIt.Ipc
open Support Json Utf8 LineStream Config

/-- The arguments of `ipc_send_start`, for a path that is text. -/
structure StartArgs where
  videoPath : List Char
  duration : Double
  fps : Double
  loop : ℤ
  frameInterval : Int32

inductive ServerCommand where
  | start (args : StartArgs)
  | stop

/-- `ipc_send_stop`: what it writes, if it does. -/
def ipcSendStop (conn : IPCConnection) : Option (List UInt8) :=
  if conn.clientFd = none then none else some (ascii "\x7b\"cmd\":\"stop\"\x7d\n")

namespace ServerCommand

def send (conn : IPCConnection) : ServerCommand → Option (List UInt8)
  | start a => ipcSendStart conn (Utf8.encode a.videoPath) a.duration a.fps a.loop a.frameInterval
  | stop => ipcSendStop conn

/-- Nothing in the command has to be spelled otherwise. -/
def Plain : ServerCommand → Prop
  | start a => PlainText a.videoPath ∧ a.duration.IsFinite ∧ a.fps.IsFinite
  | stop => True

def line : ServerCommand → List Char
  | start a => startLine a.duration a.fps a.loop a.frameInterval a.videoPath
  | stop => "\x7b\"cmd\":\"stop\"\x7d".toList

end ServerCommand

/-! ## The detector -/

structure Request where
  videoPath : Json
  durationSec : ℚ
  fps : ℚ
  loop : Bool
  frameInterval : ℤ

/-- Python's `bool`. -/
def truthy : Json → Bool
  | .null => false
  | .bool b => b
  | .int n => n ≠ 0
  | .float literal => Decimal.value literal ≠ some 0
  | .string units => units ≠ []
  | .array elements => !elements.isEmpty
  | .object members => !members.isEmpty

/-- Python's `float` of a number, `none` for an exception. -/
def toFloat : Json → Option ℚ
  | .bool b => some (if b then 1 else 0)
  | .int n => some n
  | .float literal => Decimal.value literal
  | _ => none

/-- Python's `int` of a number, which cuts off the fraction. -/
def toInt : Json → Option ℤ
  | .bool b => some (if b then 1 else 0)
  | .int n => some n
  | .float literal => (Decimal.value literal).map fun q => if 0 ≤ q then ⌊q⌋ else ⌈q⌉
  | _ => none

/-- `cmd.get(key, default)` -/
def getOr (cmd : Json) (key : String) (default : Json) : Json :=
  (cmd.get? (codes key.toList)).getD default

/-- `float(cmd.get(key, 0.0) or 0.0)` -/
def secondsOf (cmd : Json) (key : String) : Option ℚ :=
  let value := getOr cmd key (.float "0.0".toList)
  if truthy value then toFloat value else some 0

def requestOf (cmd : Json) : Option Request := do
  let durationSec ← secondsOf cmd "duration_sec"
  let fps ← secondsOf cmd "fps"
  let frameInterval ← toInt (getOr cmd "frame_interval" (.int 5))
  return {
    videoPath := getOr cmd "video_path" (.string [])
    durationSec := durationSec
    fps := fps
    loop := truthy (getOr cmd "loop" (.bool false))
    frameInterval := frameInterval }

/-- Anything else has no `get`. -/
def isObject : Json → Bool
  | .object _ => true
  | _ => false

/-- `cmd.get("cmd") == name` -/
def isCommand (cmd : Json) (name : String) : Bool :=
  match cmd.get? (codes "cmd".toList) with
  | some (.string units) => units = codes name.toList
  | _ => false

/-! ## The numbers -/

theorem roundHalfEven_near (n : ℕ) {d : ℕ} (hd : 0 < d) :
    |(roundHalfEven n d : ℚ) - n / d| ≤ 1 / 2 := by
  have hpos : (0 : ℚ) < d := by exact_mod_cast hd
  have hsplit : (d * (n / d : ℕ) + (n % d : ℕ) : ℚ) = n := by exact_mod_cast Nat.div_add_mod n d
  have hquotient : (n : ℚ) / d = (n / d : ℕ) + (n % d : ℕ) / d := by
    rw [← hsplit]
    field_simp
  rw [hquotient, roundHalfEven]
  split_ifs with h
  · have hle : (2 * (n % d : ℕ) : ℚ) ≤ d := by exact_mod_cast (by omega : 2 * (n % d) ≤ d)
    have hrest : ((n % d : ℕ) : ℚ) / d ≤ 1 / 2 := by
      rw [div_le_div_iff₀ hpos two_pos]
      linarith
    have hnonneg : (0 : ℚ) ≤ (n % d : ℕ) / d := by positivity
    rw [abs_le]
    constructor <;> linarith
  · have hlt := Nat.mod_lt n hd
    have hge : (d : ℚ) ≤ 2 * (n % d : ℕ) := by exact_mod_cast (by omega : d ≤ 2 * (n % d))
    have hrest : 1 / 2 ≤ ((n % d : ℕ) : ℚ) / d := by
      rw [div_le_div_iff₀ two_pos hpos]
      linarith
    have hone : ((n % d : ℕ) : ℚ) / d ≤ 1 := (div_le_one₀ hpos).mpr (by exact_mod_cast hlt.le)
    push_cast
    rw [abs_le]
    constructor <;> linarith

namespace Double

def toRat : Double → ℚ
  | finite minus mantissa exponent _ =>
    if minus then -(mantissa * 2 ^ exponent) else mantissa * 2 ^ exponent
  | _ => 0

theorem scaled_near (places mantissa : ℕ) (exponent : ℤ) :
    |(scaled places mantissa exponent : ℚ) - mantissa * 2 ^ exponent * 10 ^ places| ≤ 1 / 2 := by
  rw [scaled]
  split_ifs with h
  · obtain ⟨k, rfl⟩ := Int.eq_ofNat_of_zero_le h
    have hexact : ((mantissa * 10 ^ places * 2 ^ k : ℕ) : ℚ) =
        mantissa * 2 ^ (k : ℤ) * 10 ^ places := by
      push_cast
      rw [zpow_natCast]
      ring
    rw [Int.toNat_natCast, hexact, sub_self, abs_zero]
    norm_num
  · obtain ⟨k, hk⟩ := Int.eq_ofNat_of_zero_le (by omega : 0 ≤ -exponent)
    have hquotient : (mantissa * 2 ^ exponent * 10 ^ places : ℚ) =
        ((mantissa * 10 ^ places : ℕ) : ℚ) / (2 ^ k : ℕ) := by
      rw [← neg_neg exponent, hk, zpow_neg, zpow_natCast]
      push_cast
      field_simp
    rw [hk, Int.toNat_natCast, hquotient]
    exact roundHalfEven_near _ (Nat.pow_pos (by decide))

/-- A printed number is read as one that is at most half a unit of the last place away. -/
theorem value_fixed {places : ℕ} (hplaces : 0 < places) {d : Double} (h : d.IsFinite) :
    ∃ q, Decimal.value (d.fixed places) = some q ∧ |q - d.toRat| ≤ 1 / 2 / 10 ^ places := by
  cases d with
  | finite minus mantissa exponent hexp =>
    have hpos : 0 < 10 ^ places := Nat.pow_pos (by decide)
    have hnear := scaled_near places mantissa exponent
    obtain ⟨n, hn⟩ : ∃ n, n = scaled places mantissa exponent := ⟨_, rfl⟩
    obtain ⟨hne, hdigits⟩ := digits_leftpad places (n % 10 ^ places)
    have hlen := length_digits_leftpad hplaces (Nat.mod_lt n hpos)
    have hvalue := Decimal.value_point minus (n / 10 ^ places) hne hdigits
    rw [hlen, ofDigitChars_leftpad, Nat.div_add_mod'] at hvalue
    rw [← hn] at hnear
    refine ⟨if minus then -(n / 10 ^ places : ℚ) else n / 10 ^ places, ?_, ?_⟩
    · rw [fixed, ← hn]
      exact hvalue
    · have hscale : (n : ℚ) / 10 ^ places - mantissa * 2 ^ exponent =
          (n - mantissa * 2 ^ exponent * 10 ^ places) / 10 ^ places := by field_simp
      have hbound : |(n : ℚ) / 10 ^ places - mantissa * 2 ^ exponent| ≤ 1 / 2 / 10 ^ places := by
        rw [hscale, abs_div, abs_of_pos (by positivity : (0 : ℚ) < 10 ^ places)]
        gcongr
      cases minus with
      | false => exact hbound
      | true =>
        rw [abs_sub_comm] at hbound
        simpa only [toRat, if_true, neg_sub_neg] using hbound
  | infinite minus => exact h.elim
  | nan minus => exact h.elim

end Double

/-! ## What is understood -/

/-- The request says what the arguments say, with the times rounded as they are printed. -/
structure Request.Fulfils (r : Request) (a : StartArgs) : Prop where
  videoPath : r.videoPath = .string (codes a.videoPath)
  durationSec : |r.durationSec - a.duration.toRat| ≤ 1 / 2 / 10 ^ 3
  fps : |r.fps - a.fps.toRat| ≤ 1 / 2 / 10 ^ 2
  loop : r.loop = decide (a.loop ≠ 0)
  frameInterval : r.frameInterval = a.frameInterval.toInt

inductive Understood : ServerCommand → Json → Prop where
  | start {a : StartArgs} {cmd : Json} (r : Request) (hcmd : isCommand cmd "start")
      (hrequest : requestOf cmd = some r) (h : r.Fulfils a) : Understood (.start a) cmd
  | stop {cmd : Json} (hcmd : isCommand cmd "stop") : Understood .stop cmd

theorem isObject_of_isCommand {cmd : Json} {name : String} (h : isCommand cmd name) :
    isObject cmd ∧ truthy cmd := by
  cases cmd with
  | object members =>
    refine ⟨rfl, ?_⟩
    cases members with
    | nil => cases h
    | cons => rfl
  | _ => cases h

theorem isCommand_unique {cmd : Json} {name name' : String} (h : isCommand cmd name)
    (h' : isCommand cmd name') : codes name.toList = codes name'.toList := by
  simp only [isCommand] at h h'
  split at h
  · next units hget =>
    rw [hget] at h'
    rw [← of_decide_eq_true h, ← of_decide_eq_true h']
  · cases h

theorem secondsOf_float {cmd : Json} {key : String} {literal : List Char} {q : ℚ}
    (h : cmd.get? (codes key.toList) = some (.float literal))
    (hvalue : Decimal.value literal = some q) : secondsOf cmd key = some q := by
  have hget : getOr cmd key (.float "0.0".toList) = .float literal := by rw [getOr, h]; rfl
  rw [secondsOf, hget]
  by_cases hzero : q = 0
  · have hfalse : truthy (.float literal) = false := by simp [truthy, hvalue, hzero]
    simp [hfalse, hzero]
  · have htrue : truthy (.float literal) = true := by simp [truthy, hvalue, hzero]
    simp only [htrue, if_true, toFloat, hvalue]

theorem requestOf_members {a : StartArgs} (hduration : a.duration.IsFinite)
    (hfps : a.fps.IsFinite) :
    ∃ r, requestOf (.object ((codes "cmd".toList, .string (codes "start".toList)) ::
      (codes "video_path".toList, .string (codes a.videoPath)) ::
      laterMembers a.duration a.fps a.loop a.frameInterval)) = some r ∧ r.Fulfils a := by
  obtain ⟨duration, hdurationValue, hdurationNear⟩ :=
    Double.value_fixed (by decide : 0 < 3) hduration
  obtain ⟨fps, hfpsValue, hfpsNear⟩ := Double.value_fixed (by decide : 0 < 2) hfps
  obtain ⟨cmd, hcmd⟩ : ∃ cmd, cmd =
    Json.object ((codes "cmd".toList, .string (codes "start".toList)) ::
      (codes "video_path".toList, .string (codes a.videoPath)) ::
      laterMembers a.duration a.fps a.loop a.frameInterval) := ⟨_, rfl⟩
  have hget : cmd.get? (codes "duration_sec".toList) = some (.float (a.duration.fixed 3)) ∧
      cmd.get? (codes "fps".toList) = some (.float (a.fps.fixed 2)) ∧
      cmd.get? (codes "frame_interval".toList) = some (.int a.frameInterval.toInt) ∧
      cmd.get? (codes "video_path".toList) = some (.string (codes a.videoPath)) ∧
      cmd.get? (codes "loop".toList) = some (.bool (a.loop ≠ 0)) := by
    rw [hcmd]
    exact ⟨rfl, rfl, rfl, rfl, rfl⟩
  rw [← hcmd, requestOf, secondsOf_float hget.1 hdurationValue, secondsOf_float hget.2.1 hfpsValue]
  simp only [getOr, hget, Option.getD_some, toInt, truthy, Option.bind_eq_bind, Option.bind_some,
    Option.pure_def, Option.some.injEq, exists_eq_left']
  exact ⟨rfl, hdurationNear, hfpsNear, rfl, rfl⟩

theorem Understood.object {c : ServerCommand} {cmd : Json} (h : Understood c cmd) :
    isObject cmd ∧ truthy cmd := by
  cases h with
  | start _ hcmd => exact isObject_of_isCommand hcmd
  | stop hcmd => exact isObject_of_isCommand hcmd

namespace ServerCommand

variable {c : ServerCommand} {conn : IPCConnection} {msg : List UInt8}

theorem send_eq (h : c.send conn = some msg) : msg = Utf8.encode c.line ++ [lf] := by
  cases c with
  | start a =>
    simp only [send, ipcSendStart] at h
    split_ifs at h
    cases h
    exact startMessage_eq _ _ _ _ _
  | stop =>
    simp only [send, ipcSendStop] at h
    split_ifs at h
    cases h
    decide

theorem oneLine (h : c.Plain) : '\n' ∉ c.line := by
  cases c with
  | start a =>
    have hcontrol : NoControl a.videoPath := fun c hc => (h.1 c hc).2.2
    have hlf := lf_notMem_startLine a.duration a.fps a.loop a.frameInterval hcontrol
    rw [Utf8.mem_encode_iff (by decide)] at hlf
    exact fun hmem => hlf ⟨'\n', hmem, by decide⟩
  | stop => decide

theorem loads_line (h : c.Plain) : ∃ cmd, loads c.line = some cmd ∧ Understood c cmd := by
  cases c with
  | start a =>
    obtain ⟨hplain, hduration, hfps⟩ := h
    obtain ⟨fuel, hloads⟩ := loads_startLine a.duration a.fps a.loop a.frameInterval a.videoPath
    rw [parse_pathMember fuel a.duration a.fps a.loop a.frameInterval hplain hduration hfps]
      at hloads
    obtain ⟨r, hrequest, hfulfils⟩ := requestOf_members hduration hfps
    exact ⟨_, hloads, .start r rfl hrequest hfulfils⟩
  | stop =>
    have hkey : PlainText "cmd".toList := by decide
    have hname : PlainText "stop".toList := by decide
    obtain ⟨fields, hfields⟩ : ∃ fields, fields = [Field.string _ _ hkey hname] := ⟨_, rfl⟩
    have htext : "\x7b\"cmd\":\"stop\"\x7d".toList = objectText fields := by
      rw [hfields]
      simp [objectText, writtenFields]
    have hline : line .stop = objectText fields := htext
    have hcmd : isCommand (objectValue fields) "stop" := by
      rw [hfields]
      rfl
    have hne : fields ≠ [] := by simp [hfields]
    exact ⟨_, (congrArg loads hline).trans (loads_objectText hne), .stop hcmd⟩

end ServerCommand

/-- The commands as the reader of the detector sees them. -/
theorem exists_commands {cmds : List ServerCommand} (hplain : ∀ c ∈ cmds, c.Plain) :
    ∃ commands : List (Command Json.loads), commands.map (·.text) = cmds.map (·.line) ∧
      List.Forall₂ Understood cmds (commands.map (·.value)) := by
  induction cmds with
  | nil => exact ⟨[], rfl, .nil⟩
  | cons c cmds ih =>
    obtain ⟨commands, htexts, hvalues⟩ := ih fun c hc => hplain c (List.mem_cons_of_mem _ hc)
    have hc := hplain c List.mem_cons_self
    obtain ⟨cmd, hloads, hunderstood⟩ := ServerCommand.loads_line hc
    exact ⟨⟨c.line, cmd, hloads, ServerCommand.oneLine hc⟩ :: commands,
      congrArg (c.line :: ·) htexts, .cons hunderstood hvalues⟩

/-- The bytes of the messages are the lines of the commands. -/
theorem flatten_sends {conn : IPCConnection} {cmds : List ServerCommand} {msgs : List (List UInt8)}
    (h : cmds.map (·.send conn) = msgs.map some) :
    msgs.flatten = Utf8.encode (frame '\n' (cmds.map (·.line))) := by
  induction cmds generalizing msgs with
  | nil =>
    rw [List.map_nil, eq_comm, List.map_eq_nil_iff] at h
    rw [h]
    rfl
  | cons c cmds ih =>
    cases msgs with
    | nil => cases h
    | cons msg msgs =>
      obtain ⟨hmsg, hrest⟩ := List.cons.inj h
      have hlf : [lf] = Utf8.encode ['\n'] := by decide
      rw [List.flatten_cons, ih hrest, ServerCommand.send_eq hmsg, List.map_cons, frame_cons, hlf,
        ← Utf8.encode_append, ← Utf8.encode_append, List.append_assoc]
      rfl

end SnipeIt.Ipc
