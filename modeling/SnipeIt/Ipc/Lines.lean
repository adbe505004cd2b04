import SnipeIt.Ipc.Buffer
import SnipeIt.Support.Run

/-! # Lines on one connection

Every call of `ipc_recv_message` that reaches the search for a newline is
recorded together with the bytes the client really sent. Cutting a line that
does not fit the caller's buffer uses the cut length for the rest of the buffer
as well, so the lines behind it are damaged; a full buffer without a newline,
or a zero byte before one, stops the connection.
-/

namespace SnipeIt.Ipc
open Support Support.LineStream IPCConnection

/-- A call that searched for a newline: the bytes received and not yet taken, the connection
that was searched, whether `recv` was left out, and what the call returned. -/
structure Call where
  received : List UInt8
  before : IPCConnection
  skipped : Bool
  buffsize : ℕ
  result : RecvReturn

/-- The server's side of the socket with the history of its calls. -/
structure Link where
  conn : IPCConnection
  received : List UInt8
  calls : List Call

inductive LinkOp where
  | accept (fd : Option ℕ) (nonblocking : Bool)
  | disconnect
  | call (buffsize : ℕ) (recv : (space : ℕ) → RecvResult space) (outside : ℕ → UInt8)

namespace Link

def init (fd : Option ℕ) : Link := ⟨(ipcServerInit fd).2, [], []⟩

def accept (s : Link) (fd : Option ℕ) (nonblocking : Bool) : Link :=
  { s with
    conn := (ipcAcceptClient s.conn fd nonblocking).2
    received := if (ipcAcceptClient s.conn fd nonblocking).1 = 0 then [] else s.received }

def callAt (s : Link) (buffsize : ℕ) (recv : (space : ℕ) → RecvResult space)
    (outside : ℕ → UInt8) : Call where
  received := s.received ++ s.conn.handed recv
  before := s.conn.recvInto recv
  skipped := decide (¬ s.conn.recvLen < recvBufferSize - 1)
  buffsize := buffsize
  result := ipcRecvMessage s.conn buffsize recv outside

/-- What the sent bytes leave behind the first `k + 1` of them. -/
def behind (received : List UInt8) : Option ℕ → List UInt8
  | none => received
  | some k => received.drop (k + 1)

def call (s : Link) (buffsize : ℕ) (recv : (space : ℕ) → RecvResult space)
    (outside : ℕ → UInt8) : Link :=
  if s.conn.clientFd = none ∨ (s.conn.recvInto recv).clientFd = none then
    { s with conn := (ipcRecvMessage s.conn buffsize recv outside).conn }
  else
    { conn := (ipcRecvMessage s.conn buffsize recv outside).conn
      received := behind (s.received ++ s.conn.handed recv) (s.conn.recvInto recv).newline
      calls := s.calls ++ [s.callAt buffsize recv outside] }

/-- Clients come and go in any order, and calls may pass a buffer of any positive size. -/
inductive Step : Link → LinkOp → Link → Prop where
  | accept (s : Link) (fd : Option ℕ) (nonblocking : Bool) :
      Step s (.accept fd nonblocking) (s.accept fd nonblocking)
  | disconnect (s : Link) : Step s .disconnect { s with conn := ipcDisconnectClient s.conn }
  | call (s : Link) (buffsize : ℕ) (hb : 0 < buffsize)
      (recv : (space : ℕ) → RecvResult space) (outside : ℕ → UInt8) :
      Step s (.call buffsize recv outside) (s.call buffsize recv outside)

end Link

namespace Call

/-- Taking the line that ends at `k` leaves exactly the received bytes behind it, and copies
only bytes that were received. -/
structure Isolated (c : Call) (k : ℕ) : Prop where
  length : c.result.conn.recvLen + (k + 1) = c.before.recvLen
  rest : c.result.conn.content = c.before.content.drop (k + 1)
  received : c.before.content = c.received
  inside : ∀ r ∈ c.result.copied, r.1 + r.2 ≤ c.before.recvLen

/-- The call does not pass over `recv` for nothing, and a received newline yields a message. -/
structure Answers (c : Call) : Prop where
  notStuck : ¬ (c.skipped ∧ c.result.value = 0)
  newline : lf ∈ c.before.content → 0 < c.result.value

/-- The first received line can be told from "no message yet"; without a complete line there
was room for more bytes. -/
structure Readable (c : Call) : Prop where
  line : lf ∈ c.before.content → firstLine lf c.before.content ≠ [] ∧
    nul ∉ firstLine lf c.before.content ∧ 1 < c.buffsize
  room : lf ∉ c.before.content → ¬ c.skipped

/-- How the result of a recorded call follows from the searched connection. -/
def Explained (c : Call) : Prop :=
  c.before.clientFd ≠ none ∧ 0 < c.buffsize ∧
    ((findEnd lf nul c.before.content = none ∧ c.result = ⟨c.before, 0, [], []⟩) ∨
      ∃ k, ∃ hk : k < c.before.recvLen, ∃ outside,
        findEnd lf nul c.before.content = some k ∧
        c.result = c.before.takeLine k hk c.buffsize outside)

/-- A line is isolated exactly when it fits, provided the buffer held the received bytes. -/
theorem isolated_iff {c : Call} (h : c.Explained) (hreceived : c.before.content = c.received)
    {k : ℕ} (hk : c.before.newline = some k) : c.Isolated k ↔ k < c.buffsize := by
  obtain ⟨hc, hb, ⟨hnone, -⟩ | ⟨j, hj, outside, hsome, hres⟩⟩ := h
  · rw [newline_eq _ hc, hnone] at hk
    cases hk
  · rw [newline_eq _ hc, hsome, Option.some.injEq] at hk
    subst j
    constructor
    · intro hiso
      have hlen := hiso.length
      rw [hres, takeLine_recvLen _ hj hb] at hlen
      omega
    · intro hshort
      obtain ⟨hrest, -, hinside⟩ := c.before.takeLine_short hj hshort outside
      refine ⟨?_, ?_, hreceived, ?_⟩
      · rw [hres, takeLine_recvLen _ hj hb]
        omega
      · rw [hres, hrest]
      · rw [hres]
        exact hinside

theorem value_eq_zero_iff {c : Call} (h : c.Explained) :
    c.result.value = 0 ↔ ¬ (lf ∈ c.before.content ∧ firstLine lf c.before.content ≠ [] ∧
      nul ∉ firstLine lf c.before.content ∧ 1 < c.buffsize) := by
  obtain ⟨-, hb, ⟨hnone, hres⟩ | ⟨k, hk, outside, hsome, hres⟩⟩ := h
  · rw [findEnd_eq _ nul_ne_lf] at hnone
    simp only [hres, true_iff]
    rintro ⟨hlf, -, hz, -⟩
    rw [if_pos ⟨hlf, hz⟩] at hnone
    cases hnone
  · obtain ⟨hlf, hz, hlen⟩ := findEnd_some nul_ne_lf hsome
    rw [hres, takeLine_value _ hk hb]
    have hfirst : firstLine lf c.before.content ≠ [] ↔ 0 < k := by
      rw [hlen]
      exact List.length_pos_iff.symm
    rw [hfirst]
    simp only [hlf, hz, true_and, not_false_eq_true]
    omega

theorem value_nonneg {c : Call} (h : c.Explained) : 0 ≤ c.result.value := by
  obtain ⟨-, hb, ⟨-, hres⟩ | ⟨k, hk, outside, -, hres⟩⟩ := h
  · simp [hres]
  · rw [hres, takeLine_value _ hk hb]
    omega

theorem answers_iff {c : Call} (h : c.Explained) : c.Answers ↔ c.Readable := by
  have hzero := value_eq_zero_iff h
  have hnonneg := value_nonneg h
  constructor
  · rintro ⟨hstuck, hline⟩
    refine ⟨fun hlf => ?_, fun hlf hskip => hstuck ⟨hskip, ?_⟩⟩
    · have hpos := hline hlf
      by_contra hbad
      have := hzero.mpr (fun hall => hbad hall.2)
      omega
    · exact hzero.mpr (fun hall => hlf hall.1)
  · rintro ⟨hline, hroom⟩
    refine ⟨?_, fun hlf => ?_⟩
    · rintro ⟨hskip, hval⟩
      by_cases hlf : lf ∈ c.before.content
      · exact hzero.mp hval ⟨hlf, hline hlf⟩
      · exact hroom hlf hskip
    · have : c.result.value ≠ 0 := fun hval => hzero.mp hval ⟨hlf, hline hlf⟩
      omega

end Call

namespace Link

/-- The buffer of a connected client holds the received bytes. -/
def Faithful (s : Link) : Prop := s.conn.clientFd ≠ none → s.conn.content = s.received

/-- Every line taken so far fitted the caller's buffer. -/
def ShortLines (s : Link) : Prop :=
  ∀ c ∈ s.calls, ∀ k, c.before.newline = some k → k < c.buffsize

/-- No line taken so far touched the bytes behind it. -/
def Isolates (s : Link) : Prop :=
  ∀ c ∈ s.calls, ∀ k, c.before.newline = some k → c.Isolated k

theorem callAt_explained (s : Link) {buffsize : ℕ} (hb : 0 < buffsize)
    (recv : (space : ℕ) → RecvResult space) (outside : ℕ → UInt8)
    (hc : s.conn.clientFd ≠ none) (hlive : (s.conn.recvInto recv).clientFd ≠ none) :
    (s.callAt buffsize recv outside).Explained := by
  refine ⟨hlive, hb, ?_⟩
  rcases ipcRecvMessage_cases s.conn buffsize recv outside hc with
    ⟨hup, -⟩ | ⟨-, hnone, hres⟩ | ⟨-, k, hk, hsome, hres⟩
  · exact absurd ((s.conn.recvInto_clientFd recv hc).mpr hup) hlive
  · exact .inl ⟨hnone, hres⟩
  · exact .inr ⟨k, hk, outside, hsome, hres⟩

/-- What a call does to the history: nothing, or one explained record. -/
theorem call_cases (s : Link) {buffsize : ℕ} (hb : 0 < buffsize)
    (recv : (space : ℕ) → RecvResult space) (outside : ℕ → UInt8) :
    ((s.call buffsize recv outside).calls = s.calls ∧
      (s.call buffsize recv outside).conn.clientFd = none) ∨
    (s.conn.clientFd ≠ none ∧
      (s.callAt buffsize recv outside).Explained ∧
      (s.call buffsize recv outside).conn = (s.callAt buffsize recv outside).result.conn ∧
      (s.call buffsize recv outside).received =
        behind (s.callAt buffsize recv outside).received
          (s.callAt buffsize recv outside).before.newline ∧
      (s.call buffsize recv outside).calls = s.calls ++ [s.callAt buffsize recv outside]) := by
  rw [call]
  by_cases hc : s.conn.clientFd = none
  · rw [if_pos (.inl hc)]
    exact .inl ⟨rfl, by rw [ipcRecvMessage, if_pos hc]; exact hc⟩
  by_cases hlive : (s.conn.recvInto recv).clientFd = none
  · rw [if_pos (.inr hlive)]
    refine .inl ⟨rfl, ?_⟩
    rw [ipcRecvMessage, if_neg hc, dif_pos hlive]
    exact hlive
  · rw [if_neg (by simp [hc, hlive])]
    exact .inr ⟨hc, s.callAt_explained hb recv outside hc hlive, rfl, rfl, rfl⟩

theorem accept_faithful (s : Link) (fd : Option ℕ) (nonblocking : Bool) (h : s.Faithful) :
    (s.accept fd nonblocking).Faithful := by
  intro hc
  by_cases hs : s.conn.serverFd = none
  · simp only [accept, ipcAcceptClient, if_pos hs] at hc ⊢
    exact h hc
  · cases fd with
    | none => simp [accept, ipcAcceptClient, hs] at hc
    | some fd =>
      cases nonblocking with
      | false => simp [accept, ipcAcceptClient, hs] at hc
      | true => simp [accept, ipcAcceptClient, hs, content]

theorem disconnect_clientFd (conn : IPCConnection) :
    (ipcDisconnectClient conn).clientFd = none := by
  rw [ipcDisconnectClient]
  split
  · assumption
  · rfl

/-- A recorded call keeps the buffer faithful as long as its line fitted. -/
theorem call_faithful (s : Link) {buffsize : ℕ} (hb : 0 < buffsize)
    (recv : (space : ℕ) → RecvResult space) (outside : ℕ → UInt8) (h : s.Faithful)
    (hshort : (s.call buffsize recv outside).ShortLines) :
    (s.call buffsize recv outside).Faithful := by
  intro hlive
  rcases s.call_cases hb recv outside with ⟨-, hgone⟩ | ⟨hc, hexp, hconn, hrec, hcalls⟩
  · exact absurd hgone hlive
  · have hheld : (s.callAt buffsize recv outside).before.content =
        (s.callAt buffsize recv outside).received := by
      simp only [callAt, recvInto_content, h hc]
    rw [hconn, hrec]
    cases hnl : (s.callAt buffsize recv outside).before.newline with
    | none =>
      obtain ⟨hfd, -, ⟨-, hres⟩ | ⟨k, -, -, hsome, -⟩⟩ := hexp
      · rw [hres]
        exact hheld
      · rw [newline_eq _ hfd, hsome] at hnl
        cases hnl
    | some k =>
      have hk := hshort _ (by rw [hcalls]; simp) k hnl
      rw [((Call.isolated_iff hexp hheld hnl).mpr hk).rest, hheld, behind]

/-- One step: the histories that isolate their lines are those whose lines fitted, and in
them the buffer stays faithful. -/
theorem step_isolates {s t : Link} {op : LinkOp} (hstep : Step s op t)
    (h : (s.Isolates ↔ s.ShortLines) ∧ (s.ShortLines → s.Faithful)) :
    (t.Isolates ↔ t.ShortLines) ∧ (t.ShortLines → t.Faithful) := by
  obtain ⟨hiff, hfaith⟩ := h
  cases hstep with
  | accept fd nonblocking => exact ⟨hiff, fun hs => s.accept_faithful fd nonblocking (hfaith hs)⟩
  | disconnect => exact ⟨hiff, fun _ hc => absurd (disconnect_clientFd s.conn) hc⟩
  | call buffsize hb recv outside =>
    have hcont : (s.call buffsize recv outside).ShortLines → s.ShortLines := by
      intro hs c hc k hk
      refine hs c ?_ k hk
      rcases s.call_cases hb recv outside with ⟨hcalls, -⟩ | ⟨-, -, -, -, hcalls⟩
      · rwa [hcalls]
      · rw [hcalls]
        exact List.mem_append_left _ hc
    refine ⟨?_, fun hs => s.call_faithful hb recv outside (hfaith (hcont hs)) hs⟩
    rcases s.call_cases hb recv outside with ⟨hcalls, -⟩ | ⟨hc, hexp, -, -, hcalls⟩
    · simpa only [Isolates, ShortLines, hcalls] using hiff
    · have hnew (hs : s.ShortLines) (k : ℕ)
          (hk : (s.callAt buffsize recv outside).before.newline = some k) :
          (s.callAt buffsize recv outside).Isolated k ↔ k < buffsize := by
        apply Call.isolated_iff hexp _ hk
        simp only [callAt, recvInto_content, hfaith hs hc]
      simp only [Isolates, ShortLines, hcalls, List.mem_append, List.mem_singleton]
      constructor
      · intro hall
        have hs : s.ShortLines := hiff.mp (fun c hmem => hall c (.inl hmem))
        rintro c (hmem | rfl) k hk
        · exact hs c hmem k hk
        · exact (hnew hs k hk).mp (hall _ (.inr rfl) k hk)
      · intro hall
        have hs : s.ShortLines := fun c hmem => hall c (.inl hmem)
        rintro c (hmem | rfl) k hk
        · exact hiff.mpr hs c hmem k hk
        · exact (hnew hs k hk).mpr (hall _ (.inr rfl) k hk)

theorem run_explained {fd : Option ℕ} {ops : List LinkOp} {s : Link}
    (h : Run Step (init fd) ops s) : ∀ c ∈ s.calls, c.Explained := by
  apply h.invariant (P := fun s => ∀ c ∈ s.calls, c.Explained)
  · simp [init]
  · intro s op t hs hstep
    cases hstep with
    | accept fd nonblocking => exact hs
    | disconnect => exact hs
    | call buffsize hb recv outside =>
      rcases s.call_cases hb recv outside with ⟨hcalls, -⟩ | ⟨-, hexp, -, -, hcalls⟩
      · rwa [hcalls]
      · rw [hcalls]
        intro c hmem
        rcases List.mem_append.mp hmem with hold | hnew
        · exact hs c hold
        · rw [List.mem_singleton.mp hnew]
          exact hexp

end Link

/-- A full buffer without a line: from now on every call returns 0 and changes nothing, whatever
the client sends and even when it disconnects. -/
theorem full_without_line (conn : IPCConnection) (hc : conn.clientFd ≠ none)
    (hfull : conn.recvLen = recvBufferSize - 1) (hnone : findEnd lf nul conn.content = none)
    (buffsize : ℕ) (recv : (space : ℕ) → RecvResult space) (outside : ℕ → UInt8) :
    ipcRecvMessage conn buffsize recv outside = ⟨conn, 0, [], []⟩ := by
  have hinto := conn.recvInto_full recv hfull
  rcases ipcRecvMessage_cases conn buffsize recv outside hc with
    ⟨hup, -⟩ | ⟨-, -, hres⟩ | ⟨-, k, hk, hsome, -⟩
  · exact absurd hup.1 (by omega)
  · rw [hres, hinto]
  · rw [hinto, hnone] at hsome
    cases hsome

/-- Such a call is recorded: it leaves out `recv` and returns 0. -/
theorem stuck_call (s : Link) (hc : s.conn.clientFd ≠ none)
    (hfull : s.conn.recvLen = recvBufferSize - 1) (hnone : findEnd lf nul s.conn.content = none)
    {buffsize : ℕ} (hb : 0 < buffsize) (recv : (space : ℕ) → RecvResult space)
    (outside : ℕ → UInt8) :
    ∃ c ∈ (s.call buffsize recv outside).calls, c.skipped = true ∧ c.result.value = 0 := by
  have hstuck := full_without_line s.conn hc hfull hnone buffsize recv outside
  rcases s.call_cases hb recv outside with ⟨-, hgone⟩ | ⟨-, -, -, -, hcalls⟩
  · have hinto : ¬ (s.conn.clientFd = none ∨ (s.conn.recvInto recv).clientFd = none) := by
      rw [recvInto_full _ _ hfull]
      exact fun h => h.elim hc hc
    rw [Link.call, if_neg hinto, hstuck] at hgone
    exact absurd hgone hc
  · refine ⟨s.callAt buffsize recv outside, ?_, ?_, ?_⟩
    · rw [hcalls]
      exact List.mem_append_right _ (List.mem_singleton_self _)
    · exact decide_eq_true (by omega)
    · rw [Link.callAt, hstuck]

/-! ## First calls after a client connected -/

def deliver (bytes : List UInt8) (space : ℕ) : RecvResult space :=
  if h : bytes ≠ [] ∧ bytes.length ≤ space then .data bytes h.1 h.2 else .again

def greet (bytes : List UInt8) (buffsize : ℕ) : Link :=
  ((Link.init (some 3)).accept (some 4) true).call buffsize (deliver bytes) fun _ => nul

def greetOps (bytes : List UInt8) (buffsize : ℕ) : List LinkOp :=
  [.accept (some 4) true, .call buffsize (deliver bytes) fun _ => nul]

theorem greet_run (bytes : List UInt8) {buffsize : ℕ} (hb : 0 < buffsize) :
    Run Link.Step (Link.init (some 3)) (greetOps bytes buffsize) (greet bytes buffsize) :=
  .cons (.accept _ _ _) (.single (.call _ _ hb _ _))

theorem handed_deliver (conn : IPCConnection) {bytes : List UInt8} (hne : bytes ≠ [])
    (h : conn.recvLen + bytes.length ≤ recvBufferSize - 1) :
    conn.handed (deliver bytes) = bytes := by
  have hpos := List.length_pos_of_ne_nil hne
  rw [handed, if_pos (by omega), deliver, dif_pos ⟨hne, by omega⟩]

theorem not_hangsUp_deliver (conn : IPCConnection) (bytes : List UInt8) :
    ¬ conn.hangsUp (deliver bytes) := by
  rintro ⟨-, h⟩
  rw [deliver] at h
  split at h <;> simp at h

/-- The one call of `greet` searches exactly `bytes`. -/
theorem greet_call {bytes : List UInt8} (hne : bytes ≠ []) {buffsize : ℕ} (hb : 0 < buffsize)
    (hlen : bytes.length ≤ recvBufferSize - 1) :
    ∃ c : Call, (greet bytes buffsize).calls = [c] ∧ c.Explained ∧ c.before.content = bytes ∧
      c.before.clientFd ≠ none ∧ c.skipped = false ∧ c.buffsize = buffsize ∧
      (greet bytes buffsize).conn = c.result.conn := by
  have hconn : ((Link.init (some 3)).accept (some 4) true).conn.clientFd ≠ none := by
    simp [Link.accept, Link.init, ipcServerInit, ipcAcceptClient]
  have hzero : ((Link.init (some 3)).accept (some 4) true).conn.recvLen = 0 := by
    simp [Link.accept, Link.init, ipcServerInit, ipcAcceptClient]
  have hpos : 0 < recvBufferSize - 1 := by
    have := List.length_pos_of_ne_nil hne
    omega
  rcases Link.call_cases _ hb (deliver bytes) (fun _ => nul) with
    ⟨-, hgone⟩ | ⟨-, hexp, hres, -, hcalls⟩
  · have hlive : (((Link.init (some 3)).accept (some 4) true).conn.recvInto
        (deliver bytes)).clientFd ≠ none :=
      fun h => not_hangsUp_deliver _ _ ((recvInto_clientFd _ _ hconn).mp h)
    rw [Link.call, if_neg (fun h => h.elim hconn hlive)] at hgone
    rcases ipcRecvMessage_cases _ buffsize (deliver bytes) (fun _ => nul) hconn with
      ⟨hup, -⟩ | ⟨-, -, hmsg⟩ | ⟨-, k, hk, -, hmsg⟩
    · exact absurd hup (not_hangsUp_deliver _ _)
    · rw [hmsg] at hgone
      exact absurd hgone hlive
    · rw [hmsg, takeLine_clientFd] at hgone
      exact absurd hgone hlive
  · refine ⟨_, hcalls, hexp, ?_, hexp.1, ?_, rfl, hres⟩
    · have hhanded := handed_deliver ((Link.init (some 3)).accept (some 4) true).conn hne
        (by omega)
      simp only [Link.callAt, recvInto_content, hhanded]
      rw [content, hzero]
      rfl
    · rw [Link.callAt, hzero]
      exact decide_eq_false (not_not.mpr hpos)

/-- Over-long lines: a run leaves the bytes behind every line alone exactly when every line it
takes is shorter than the buffer of its caller. -/
theorem isolates_iff_shortLines {fd : Option ℕ} {ops : List LinkOp} {s : Link}
    (h : Run Link.Step (Link.init fd) ops s) : s.Isolates ↔ s.ShortLines := by
  have hinv := h.invariant
    (P := fun s => (s.Isolates ↔ s.ShortLines) ∧ (s.ShortLines → s.Faithful))
    ⟨by simp [Link.Isolates, Link.ShortLines, Link.init],
      fun _ hc => absurd rfl hc⟩
    (fun s op t hs hstep => Link.step_isolates hstep hs)
  exact hinv.1

/-- The line `hi` is taken without touching the line and the half of one that are behind it. -/
theorem short_line_isolated : (greet [104, 105, lf, 111, lf, 107] maxMsgSize).Isolates ∧
    (greet [104, 105, lf, 111, lf, 107] maxMsgSize).conn.content = [111, lf, 107] := by
  have hb : 0 < maxMsgSize := by decide
  refine ⟨(isolates_iff_shortLines (greet_run [104, 105, lf, 111, lf, 107] hb)).mpr ?_,
    by decide +kernel⟩
  obtain ⟨c, hcalls, -, hcontent, hc, -, hsize, -⟩ :=
    greet_call (List.cons_ne_nil 104 [105, lf, 111, lf, 107]) hb (by decide)
  intro d hd k hk
  rw [hcalls, List.mem_singleton] at hd
  subst d
  rw [newline_eq _ hc, hcontent] at hk
  obtain rfl : 2 = k := Option.some.inj hk
  rw [hsize]
  decide

def longLine : List UInt8 := List.replicate maxMsgSize 97 ++ [lf]

/-- One line of `maxMsgSize` bytes and nothing behind it: after it was taken the connection
counts one more received byte, and that byte is the terminator. -/
theorem long_line_not_isolated :
    Run Link.Step (Link.init (some 3)) (greetOps longLine maxMsgSize)
      (greet longLine maxMsgSize) ∧
    (greet longLine maxMsgSize).conn.recvLen = 1 ∧
    ¬ (greet longLine maxMsgSize).Isolates := by
  have hb : 0 < maxMsgSize := by decide
  have hlen : longLine.length = 4097 := by
    rw [longLine, List.length_append, List.length_replicate]
    rfl
  obtain ⟨c, hcalls, ⟨-, -, hexp⟩, hcontent, hc, -, hsize, hconn⟩ :=
    greet_call (List.ne_nil_of_length_pos (l := longLine) (by omega)) hb (by rw [hlen]; decide)
  have hfind : findEnd lf nul longLine = some 4096 := by
    have hframe : longLine = frame lf [List.replicate maxMsgSize 97] := by
      simp [longLine, frame]
    rw [hframe, findEnd_frame nul_ne_lf (by simp [lf]) (by simp [nul]), List.length_replicate]
    rfl
  have hnl : c.before.newline = some 4096 := by rw [newline_eq _ hc, hcontent, hfind]
  have hrecvLen : c.before.recvLen = 4097 := by rw [← content_length, hcontent, hlen]
  refine ⟨greet_run longLine hb, ?_, ?_⟩
  · rw [hconn]
    rcases hexp with ⟨hnone, -⟩ | ⟨k, hk, outside, hsome, hres⟩
    · rw [hcontent, hfind] at hnone
      cases hnone
    · rw [hcontent, hfind, Option.some.injEq] at hsome
      subst k
      rw [hres, takeLine_recvLen _ hk (by rw [hsize]; exact hb), hsize, hrecvLen]
      decide
  · intro hiso
    have hshort := (Call.isolated_iff (c := c) ⟨hc, by rw [hsize]; exact hb, hexp⟩
      (hiso c (by rw [hcalls]; simp) _ hnl).received hnl).mp
      (hiso c (by rw [hcalls]; simp) _ hnl)
    rw [hsize] at hshort
    exact absurd hshort (by decide)

/-- Progress: no call of a run gets stuck or overlooks a newline exactly when every call finds
a readable line or room for more bytes. -/
theorem answers_iff_readable {fd : Option ℕ} {ops : List LinkOp} {s : Link}
    (h : Run Link.Step (Link.init fd) ops s) :
    (∀ c ∈ s.calls, c.Answers) ↔ ∀ c ∈ s.calls, c.Readable :=
  forall₂_congr fun c hc => Call.answers_iff (Link.run_explained h c hc)

/-- A line comes with half of the next one, which is completed before the second call. Both are
answered. -/
def twoCalls : Link :=
  (greet [104, lf, 105] maxMsgSize).call maxMsgSize (deliver [106, lf]) fun _ => nul

theorem short_line_answered : twoCalls.calls.map (·.result.message) = [[104], [105, 106]] ∧
    ∀ c ∈ twoCalls.calls, c.Answers := by
  have hb : 0 < maxMsgSize := by decide
  have hrun : Run Link.Step (Link.init (some 3))
      (greetOps [104, lf, 105] maxMsgSize ++ [.call maxMsgSize (deliver [106, lf]) fun _ => nul])
      twoCalls :=
    (greet_run [104, lf, 105] hb).snoc (.call _ _ hb _ _)
  have hcontents : twoCalls.calls.map (fun c => (c.before.content, c.skipped, c.buffsize)) =
      [([104, lf, 105], false, maxMsgSize), ([105, 106, lf], false, maxMsgSize)] := by
    decide +kernel
  refine ⟨by decide +kernel, (answers_iff_readable hrun).mpr fun c hc => ?_⟩
  have hmem :=
    List.mem_map_of_mem (f := fun c : Call => (c.before.content, c.skipped, c.buffsize)) hc
  rw [hcontents] at hmem
  rcases List.mem_pair.mp hmem with heq | heq <;>
    obtain ⟨hcontent, hskip, hsize⟩ := by simpa only [Prod.mk.injEq] using heq
  all_goals
    refine ⟨fun _ => ?_, fun _ => by simp [hskip]⟩
    rw [hcontent, hsize]
    decide

/-- As many bytes as the buffer holds, without a newline. -/
def endlessLine : List UInt8 := List.replicate (recvBufferSize - 1) 97

/-- The client sends `recvBufferSize - 1` bytes without a newline. The second call skips `recv`
and returns 0, and so does every later one. -/
theorem endless_line_wedges :
    Run Link.Step (Link.init (some 3))
      (greetOps endlessLine maxMsgSize ++ [.call maxMsgSize (fun _ => .closed) fun _ => nul])
      ((greet endlessLine maxMsgSize).call maxMsgSize (fun _ => .closed) fun _ => nul) ∧
    (¬ ∀ c ∈ ((greet endlessLine maxMsgSize).call maxMsgSize (fun _ => .closed)
      fun _ => nul).calls, c.Answers) ∧
    ∀ buffsize recv outside,
      ipcRecvMessage (greet endlessLine maxMsgSize).conn buffsize recv outside =
        ⟨(greet endlessLine maxMsgSize).conn, 0, [], []⟩ := by
  have hb : 0 < maxMsgSize := by decide
  have hlen : endlessLine.length = recvBufferSize - 1 := List.length_replicate
  have hsize : recvBufferSize = 65536 := rfl
  have hnone : findEnd lf nul endlessLine = none := by
    rw [findEnd_eq _ nul_ne_lf, if_neg]
    rintro ⟨hlf, -⟩
    have := List.eq_of_mem_replicate hlf
    simp [lf] at this
  obtain ⟨c, -, ⟨-, -, hexp⟩, hcontent, hc, -, -, hconn⟩ :=
    greet_call (List.ne_nil_of_length_pos (l := endlessLine) (by omega)) hb hlen.le
  have hgreet : (greet endlessLine maxMsgSize).conn = c.before := by
    rw [hconn]
    rcases hexp with ⟨-, hres⟩ | ⟨k, hk, outside, hsome, -⟩
    · rw [hres]
    · rw [hcontent, hnone] at hsome
      cases hsome
  have hfull : (greet endlessLine maxMsgSize).conn.recvLen = recvBufferSize - 1 := by
    rw [hgreet, ← content_length, hcontent, hlen]
  have hstuck := full_without_line (greet endlessLine maxMsgSize).conn (by rw [hgreet]; exact hc)
    hfull (by rw [hgreet, hcontent]; exact hnone)
  refine ⟨(greet_run endlessLine hb).snoc (.call _ _ hb _ _), ?_, hstuck⟩
  intro hall
  obtain ⟨d, hd, hskip, hval⟩ := stuck_call (greet endlessLine maxMsgSize)
    (by rw [hgreet]; exact hc) hfull (by rw [hgreet, hcontent]; exact hnone) hb
    (fun _ => .closed) (fun _ => nul)
  exact (hall d hd).notStuck ⟨hskip, hval⟩

end SnipeIt.Ipc
