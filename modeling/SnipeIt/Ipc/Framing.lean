import Mathlib.Data.List.Infix
import SnipeIt.Ipc.Lines

/-! # Messages of one session

The peer sends its messages one after the other, each followed by a newline,
and the kernel hands the stream over in pieces of any size. While the peer is
connected the received and the unread bytes together are always the stream of
the messages not yet returned. The call that sees the end of the stream looks
at nothing else, so messages that are still in the buffer are dropped.
-/

namespace SnipeIt.Ipc
open Support Support.LineStream IPCConnection

/-- The connection, the sent bytes that `recv` has not handed over, and the results of positive
length so far. -/
structure Session where
  conn : IPCConnection
  unread : List UInt8
  returned : List (List UInt8)

/-- What `recv` may answer about `unread` while the peer is connected. -/
inductive Serves (unread : List UInt8) : (space : ℕ) → RecvResult space → Prop where
  | chunk (n : ℕ) {space : ℕ} (nonempty : unread.take n ≠ [])
      (fits : (unread.take n).length ≤ space) :
      Serves unread space (.data (unread.take n) nonempty fits)
  | again {space : ℕ} : Serves unread space .again

namespace Session

def start (conn : IPCConnection) (fd : ℕ) (ms : List (List UInt8)) : Session :=
  ⟨(ipcAcceptClient conn (some fd) true).2, frame lf ms, []⟩

def call (s : Session) (recv : (space : ℕ) → RecvResult space) (outside : ℕ → UInt8) :
    Session where
  conn := (ipcRecvMessage s.conn maxMsgSize recv outside).conn
  unread := s.unread.drop (s.conn.handed recv).length
  returned := s.returned ++ if 0 < (ipcRecvMessage s.conn maxMsgSize recv outside).value
    then [(ipcRecvMessage s.conn maxMsgSize recv outside).message] else []

/-- A call while the peer is connected. -/
inductive Step : Session → Unit → Session → Prop where
  | call (s : Session) (recv : (space : ℕ) → RecvResult space) (outside : ℕ → UInt8)
      (h : ∀ space, Serves s.unread space (recv space)) : Step s () (s.call recv outside)

/-- The messages not yet taken from the stream are what is received and unread. An empty
message is taken, but its length says that there is none. -/
def Holds (ms done rest : List (List UInt8)) (s : Session) : Prop :=
  s.conn.clientFd ≠ none ∧ ms = done ++ rest ∧
    s.conn.content ++ s.unread = frame lf rest ∧ s.returned = done.filter (· ≠ [])

theorem start_holds {conn : IPCConnection} {fd : ℕ} (ms : List (List UInt8))
    (haccept : (ipcAcceptClient conn (some fd) true).1 = 0) :
    Holds ms [] ms (start conn fd ms) := by
  have hserver : conn.serverFd ≠ none := by
    intro h
    simp [ipcAcceptClient, h] at haccept
  refine ⟨?_, rfl, ?_, rfl⟩
  · simp [start, ipcAcceptClient, hserver]
  · have hempty : (start conn fd ms).conn.content = [] := by
      rw [← List.length_eq_zero_iff, content_length]
      simp [start, ipcAcceptClient, hserver]
    rw [hempty, List.nil_append, start]

/-- What `recv` hands over is the head of the unread bytes. -/
theorem handed_append {s : Session} {recv : (space : ℕ) → RecvResult space}
    (h : ∀ space, Serves s.unread space (recv space)) :
    s.conn.handed recv ++ s.unread.drop (s.conn.handed recv).length = s.unread := by
  rw [handed]
  split
  · have hserves := h (recvBufferSize - s.conn.recvLen - 1)
    generalize recv (recvBufferSize - s.conn.recvLen - 1) = r at hserves
    cases hserves with
    | chunk n nonempty fits =>
      rcases Nat.le_total n s.unread.length with hn | hn
      · simp [List.length_take, Nat.min_eq_left hn]
      · simp [List.take_of_length_le hn]
    | again => simp
  · simp

theorem not_hangsUp {s : Session} {recv : (space : ℕ) → RecvResult space}
    (h : ∀ space, Serves s.unread space (recv space)) : ¬ s.conn.hangsUp recv := by
  rintro ⟨-, hup | hup⟩
  · have := h (recvBufferSize - s.conn.recvLen - 1)
    rw [hup] at this
    cases this
  · have := h (recvBufferSize - s.conn.recvLen - 1)
    rw [hup] at this
    cases this

/-- One call on the stream of `rest`: the buffer shows no message yet, or the first message of
`rest` is taken. -/
theorem call_holds {ms done rest : List (List UInt8)} {s : Session}
    (hms : ∀ m ∈ ms, lf ∉ m ∧ m.length < maxMsgSize) (hs : Holds ms done rest s)
    {recv : (space : ℕ) → RecvResult space} (h : ∀ space, Serves s.unread space (recv space))
    (outside : ℕ → UInt8) :
    (findEnd lf nul (s.conn.recvInto recv).content = none ∧
      Holds ms done rest (s.call recv outside)) ∨
    ∃ m rest', rest = m :: rest' ∧ Holds ms (done ++ [m]) rest' (s.call recv outside) := by
  obtain ⟨hc, hsplit, hstream, hreturned⟩ := hs
  have hlive := not_hangsUp h
  have hfd : (s.conn.recvInto recv).clientFd ≠ none :=
    fun hnone => hlive ((recvInto_clientFd _ _ hc).mp hnone)
  have hbytes : (s.conn.recvInto recv).content ++ s.unread.drop (s.conn.handed recv).length =
      frame lf rest := by
    rw [recvInto_content, List.append_assoc, handed_append h, hstream]
  rcases ipcRecvMessage_cases s.conn maxMsgSize recv outside hc with
    ⟨hup, -⟩ | ⟨-, hnone, hres⟩ | ⟨-, k, hk, hsome, hres⟩
  · exact absurd hup hlive
  · refine .inl ⟨hnone, ?_, hsplit, ?_, ?_⟩
    · simpa only [call, hres] using hfd
    · simpa only [call, hres] using hbytes
    · simp [call, hres, hreturned]
  · have hfree : ∀ m ∈ rest, lf ∉ m := by
      intro m hm
      exact (hms m (by rw [hsplit]; exact List.mem_append_right _ hm)).1
    obtain ⟨m, rest', rfl, -, hlen, htake, hdrop⟩ := frame_split nul_ne_lf hfree hbytes hsome
    have hshort : k < maxMsgSize := by
      rw [hlen]
      exact (hms m (by rw [hsplit]; simp)).2
    obtain ⟨hrest, hmessage, -⟩ := (s.conn.recvInto recv).takeLine_short hk hshort outside
    have hvalue := (s.conn.recvInto recv).takeLine_value hk (Nat.zero_lt_of_lt hshort) outside
    rw [Nat.min_eq_left (by omega)] at hvalue
    refine .inr ⟨m, rest', rfl, ?_, by simp [hsplit], ?_, ?_⟩
    · rw [call, hres, takeLine_clientFd]
      exact hfd
    · rw [call, hres, hrest]
      exact hdrop
    · simp only [call, hres, hvalue, hmessage, htake, hreturned, List.filter_append]
      rw [hlen]
      cases m with
      | nil => simp
      | cons b m => simp

theorem run_holds {ms : List (List UInt8)} {s t : Session} {ops : List Unit}
    (hms : ∀ m ∈ ms, lf ∉ m ∧ m.length < maxMsgSize) (h : Run Step s ops t)
    (hs : ∃ done rest, Holds ms done rest s) : ∃ done rest, Holds ms done rest t := by
  refine h.invariant (P := fun s => ∃ done rest, Holds ms done rest s) hs ?_
  intro s _ t ⟨done, rest, hs⟩ hstep
  cases hstep with
  | call recv outside hserves =>
    rcases call_holds hms hs hserves outside with ⟨-, ht⟩ | ⟨m, rest', -, ht⟩
    · exact ⟨done, rest, ht⟩
    · exact ⟨done ++ [m], rest', ht⟩

/-- Once everything was handed over, every call takes a message until none is left. -/
theorem run_drains {ms done rest : List (List UInt8)} {s t : Session} {ops : List Unit}
    (hms : ∀ m ∈ ms, lf ∉ m ∧ nul ∉ m ∧ m.length < maxMsgSize) (hs : Holds ms done rest s)
    (hunread : s.unread = []) (h : Run Step s ops t) :
    t.unread = [] ∧ Holds ms (done ++ rest.take ops.length) (rest.drop ops.length) t := by
  induction h with
  | nil => exact ⟨hunread, by simpa using hs⟩
  | @snoc ops t a u _ hstep ih =>
    obtain ⟨hempty, ht⟩ := ih
    cases hstep with
    | call recv outside hserves =>
      refine ⟨by simp [call, hempty], ?_⟩
      have hmsg : ∀ m ∈ ms, lf ∉ m ∧ m.length < maxMsgSize :=
        fun m hm => ⟨(hms m hm).1, (hms m hm).2.2⟩
      have hcontent : (t.conn.recvInto recv).content = frame lf (rest.drop ops.length) := by
        have hhanded := handed_append hserves
        rw [hempty, List.append_eq_nil_iff] at hhanded
        rw [recvInto_content, hhanded.1, ← ht.2.2.1, hempty]
      rw [List.length_append, List.length_singleton]
      rcases call_holds hmsg ht hserves outside with ⟨hnone, hu⟩ | ⟨m, rest', hrest, hu⟩
      · cases hdrop : rest.drop ops.length with
        | nil =>
          have hlen : rest.length ≤ ops.length := List.drop_eq_nil_iff.mp hdrop
          rw [List.take_of_length_le (by omega), List.drop_eq_nil_of_le (by omega)]
          rwa [List.take_of_length_le hlen, hdrop] at hu
        | cons m rest' =>
          have hm : m ∈ ms := by
            rw [hs.2.1]
            exact List.mem_append_right _ (List.mem_of_mem_drop (i := ops.length)
              (by rw [hdrop]; exact List.mem_cons_self))
          rw [hcontent, hdrop, findEnd_frame nul_ne_lf (hms m hm).1 (hms m hm).2.1] at hnone
          cases hnone
      · have htake : rest.take (ops.length + 1) = rest.take ops.length ++ [m] := by
          rw [List.take_add, hrest, List.take_succ_cons, List.take_zero]
        have hdrop : rest.drop (ops.length + 1) = rest' := by
          rw [← List.drop_drop, hrest]
          rfl
        rwa [htake, hdrop, ← List.append_assoc]

/-! ## The first call of a session -/

theorem deliver_serves (unread : List UInt8) (n space : ℕ) :
    Serves unread space (deliver (unread.take n) space) := by
  rw [deliver]
  split
  · exact .chunk n _ _
  · exact .again

/-- A client is accepted by a fresh server and the first call receives all it sends. -/
def firstCall (ms : List (List UInt8)) : Session :=
  (start (ipcServerInit (some 3)).2 4 ms).call (deliver (frame lf ms)) fun _ => nul

theorem accepted : (ipcAcceptClient (ipcServerInit (some 3)).2 (some 4) true).1 = 0 := rfl

theorem firstCall_run (ms : List (List UInt8)) :
    Run Step (start (ipcServerInit (some 3)).2 4 ms) [()] (firstCall ms) := by
  refine .single (.call _ _ _ fun space => ?_)
  show Serves (frame lf ms) space (deliver (frame lf ms) space)
  simpa using deliver_serves (frame lf ms) (frame lf ms).length space

theorem firstCall_holds (m : List UInt8) (rest : List (List UInt8))
    (hms : ∀ m' ∈ m :: rest, lf ∉ m' ∧ m'.length < maxMsgSize) (hz : nul ∉ m)
    (hlen : (frame lf (m :: rest)).length ≤ recvBufferSize - 1) :
    Holds (m :: rest) [m] rest (firstCall (m :: rest)) ∧ (firstCall (m :: rest)).unread = [] := by
  have hstart : Holds (m :: rest) [] (m :: rest) (start (ipcServerInit (some 3)).2 4 (m :: rest)) :=
    start_holds (m :: rest) rfl
  have hzero : (start (ipcServerInit (some 3)).2 4 (m :: rest)).conn.recvLen = 0 := rfl
  have hhanded : (start (ipcServerInit (some 3)).2 4 (m :: rest)).conn.handed
      (deliver (frame lf (m :: rest))) = frame lf (m :: rest) :=
    handed_deliver _ (by simp [frame_cons]) (by omega)
  have hserves (space : ℕ) : Serves (frame lf (m :: rest)) space
      (deliver (frame lf (m :: rest)) space) := by
    simpa using deliver_serves (frame lf (m :: rest)) (frame lf (m :: rest)).length space
  have hcontent : ((start (ipcServerInit (some 3)).2 4 (m :: rest)).conn.recvInto
      (deliver (frame lf (m :: rest)))).content = frame lf (m :: rest) := by
    rw [recvInto_content, hhanded, List.eq_nil_of_length_eq_zero
      ((content_length _).trans hzero), List.nil_append]
  constructor
  · rcases call_holds hms hstart hserves (fun _ => nul) with ⟨hnone, -⟩ | ⟨m', rest', h, ht⟩
    · rw [hcontent, findEnd_frame nul_ne_lf (hms m (by simp)).1 hz] at hnone
      cases hnone
    · obtain ⟨rfl, rfl⟩ := List.cons.inj h
      exact ht
  · rw [firstCall, call, hhanded]
    exact List.drop_length

end Session

open Session

/-- Framing: the calls return a prefix of the messages, and once `recv` has handed over all
bytes, as many calls as there are messages return the rest. -/
theorem framing_exact {conn : IPCConnection} {fd : ℕ} {ms : List (List UInt8)}
    (haccept : (ipcAcceptClient conn (some fd) true).1 = 0)
    (hms : ∀ m ∈ ms, 0 < m.length ∧ m.length ≤ maxMsgSize - 1 ∧ lf ∉ m ∧ nul ∉ m)
    {ops : List Unit} {s : Session} (h : Run Step (start conn fd ms) ops s) :
    s.returned <+: ms ∧ (s.unread = [] → ∃ n, ∀ ops' t, Run Step s ops' t →
      n ≤ ops'.length → t.returned = ms) := by
  have hsize : 0 < maxMsgSize := by decide
  have hfilter {done rest : List (List UInt8)} (hsplit : ms = done ++ rest) :
      done.filter (· ≠ []) = done := by
    rw [List.filter_eq_self]
    intro m hm
    simpa using List.ne_nil_of_length_pos (hms m (by rw [hsplit]; simp [hm])).1
  obtain ⟨done, rest, hs⟩ := run_holds
    (fun m hm => ⟨(hms m hm).2.2.1, by have := (hms m hm).2.1; omega⟩) h
    ⟨[], ms, start_holds ms haccept⟩
  constructor
  · rw [hs.2.2.2, hfilter hs.2.1, hs.2.1]
    exact List.prefix_append done rest
  · intro hunread
    refine ⟨rest.length, fun ops' t ht hlen => ?_⟩
    have hdrain := (run_drains
      (fun m hm => ⟨(hms m hm).2.2.1, (hms m hm).2.2.2, by have := (hms m hm).2.1; omega⟩)
      hs hunread ht).2
    rw [hdrain.2.2.2, hfilter hdrain.2.1, List.take_of_length_le hlen, hs.2.1]

/-- Two messages come in three pieces, with a call in between that finds nothing. -/
def pieces : Session :=
  ((((start (ipcServerInit (some 3)).2 4 [[104, 105], [111, 107]]).call (deliver [104])
    fun _ => nul).call (fun _ => .again) fun _ => nul).call (deliver [105, lf, 111, 107])
      fun _ => nul).call (deliver [lf]) fun _ => nul

theorem two_messages_framed :
    Run Step (start (ipcServerInit (some 3)).2 4 [[104, 105], [111, 107]]) [(), (), (), ()] pieces ∧
      pieces.returned = [[104, 105], [111, 107]] ∧
      pieces.returned <+: [[104, 105], [111, 107]] ∧
      ∃ n, ∀ ops' t, Run Step pieces ops' t → n ≤ ops'.length →
        t.returned = [[104, 105], [111, 107]] := by
  have hserves (s : Session) (n : ℕ) {bytes : List UInt8} (h : s.unread.take n = bytes) :
      Step s () (s.call (deliver bytes) fun _ => nul) :=
    .call _ _ _ fun space => h ▸ deliver_serves s.unread n space
  have hrun : Run Step (start (ipcServerInit (some 3)).2 4 [[104, 105], [111, 107]])
      [(), (), (), ()] pieces :=
    (((Run.single (hserves _ 1 (by decide +kernel))).snoc (.call _ _ _ fun _ => .again)).snoc
      (hserves _ 4 (by decide +kernel))).snoc (hserves _ 1 (by decide +kernel))
  obtain ⟨hbegins, hcomplete⟩ := framing_exact accepted (by decide) hrun
  exact ⟨hrun, by decide +kernel, hbegins, hcomplete (by decide +kernel)⟩

def Session.record (s : Session) (recv : (space : ℕ) → RecvResult space) (outside : ℕ → UInt8) :
    Call :=
  Link.callAt ⟨s.conn, s.conn.content, []⟩ maxMsgSize recv outside

/-- Every call answers a peer whose lines are short, not empty and without a zero byte. -/
theorem answers_of_lines {conn : IPCConnection} {fd : ℕ} {ms : List (List UInt8)}
    (haccept : (ipcAcceptClient conn (some fd) true).1 = 0)
    (hms : ∀ m ∈ ms, 0 < m.length ∧ m.length ≤ maxMsgSize - 1 ∧ lf ∉ m ∧ nul ∉ m)
    {ops : List Unit} {s : Session} (h : Run Step (start conn fd ms) ops s)
    {recv : (space : ℕ) → RecvResult space} (hrecv : ∀ space, Serves s.unread space (recv space))
    (outside : ℕ → UInt8) : (s.record recv outside).Answers := by
  have hsize : maxMsgSize = 4096 ∧ recvBufferSize = 65536 := ⟨rfl, rfl⟩
  obtain ⟨done, rest, hc, hsplit, hstream, -⟩ := run_holds
    (fun m hm => ⟨(hms m hm).2.2.1, by have := (hms m hm).2.1; omega⟩) h
    ⟨[], ms, start_holds ms haccept⟩
  have hrest : ∀ m ∈ rest, 0 < m.length ∧ m.length ≤ maxMsgSize - 1 ∧ lf ∉ m ∧ nul ∉ m :=
    fun m hm => hms m (by rw [hsplit]; exact List.mem_append_right _ hm)
  have hlive : (s.conn.recvInto recv).clientFd ≠ none :=
    fun hnone => not_hangsUp hrecv ((recvInto_clientFd _ _ hc).mp hnone)
  have hbytes : (s.conn.recvInto recv).content ++ s.unread.drop (s.conn.handed recv).length =
      frame lf rest := by
    rw [recvInto_content, List.append_assoc, handed_append hrecv, hstream]
  have hexplained : (s.record recv outside).Explained :=
    Link.callAt_explained ⟨s.conn, s.conn.content, []⟩ (by decide) recv outside hc hlive
  refine (Call.answers_iff hexplained).mpr ⟨fun hlf => ?_, fun hlf hskip => ?_⟩
  · obtain ⟨hpos, -, -, hz⟩ :=
      hrest _ (firstLine_of_frame (fun m hm => (hrest m hm).2.2.1) hbytes hlf)
    exact ⟨List.ne_nil_of_length_pos hpos, hz, show 1 < maxMsgSize by decide⟩
  · have hfull : ¬ s.conn.recvLen < recvBufferSize - 1 := of_decide_eq_true hskip
    have hlen := length_le_of_frame (fun m hm => (hrest m hm).2.1) hbytes hlf
    rw [recvInto_content, List.length_append, content_length] at hlen
    omega

/-- The end of the stream: everything was handed over, `recv` says so, and the call fails. -/
def Session.Closes (s : Session) (recv : (space : ℕ) → RecvResult space)
    (outside : ℕ → UInt8) : Prop :=
  s.unread = [] ∧ (∀ space, recv space = .closed) ∧
    (ipcRecvMessage s.conn maxMsgSize recv outside).value = -1

/-- Disconnect: at the call that reports it, all messages were returned exactly when no newline
is left in the buffer and no message was empty. -/
theorem closes_after_all_iff {conn : IPCConnection} {fd : ℕ} {ms : List (List UInt8)}
    (haccept : (ipcAcceptClient conn (some fd) true).1 = 0)
    (hms : ∀ m ∈ ms, lf ∉ m ∧ m.length < maxMsgSize)
    {ops : List Unit} {s : Session} (h : Run Step (start conn fd ms) ops s)
    {recv : (space : ℕ) → RecvResult space} {outside : ℕ → UInt8}
    (hclose : s.Closes recv outside) :
    s.returned = ms ↔ lf ∉ s.conn.content ∧ [] ∉ ms := by
  obtain ⟨done, rest, -, hsplit, hstream, hreturned⟩ :=
    run_holds hms h ⟨[], ms, start_holds ms haccept⟩
  rw [hclose.1, List.append_nil] at hstream
  rw [hstream, lf_mem_frame, not_not, hreturned]
  constructor
  · intro hall
    have hlen : done.length + rest.length ≤ done.length := by
      rw [← List.length_append, ← hsplit, ← hall]
      exact List.length_filter_le _ _
    refine ⟨List.length_eq_zero_iff.mp (by omega), fun hmem => ?_⟩
    rw [← hall] at hmem
    simpa using (List.mem_filter.mp hmem).2
  · rintro ⟨rfl, hnil⟩
    rw [List.append_nil] at hsplit
    rw [hsplit] at hnil ⊢
    rw [List.filter_eq_self]
    intro m hm
    simpa using ne_of_mem_of_not_mem hm hnil

theorem closes_of_closed {s : Session} (hc : s.conn.clientFd ≠ none) (hunread : s.unread = [])
    (hroom : s.conn.recvLen < recvBufferSize - 1) :
    s.Closes (fun _ => .closed) fun _ => nul := by
  refine ⟨hunread, fun _ => rfl, ?_⟩
  have hup : s.conn.hangsUp fun _ => .closed := ⟨hroom, .inl rfl⟩
  rcases ipcRecvMessage_cases s.conn maxMsgSize (fun _ => .closed) (fun _ => nul) hc with
    ⟨-, hres⟩ | ⟨hlive, -⟩ | ⟨hlive, -⟩
  · rw [hres]
  · exact absurd hup hlive
  · exact absurd hup hlive

/-- One message, received and returned before the client hangs up. -/
theorem one_message_kept : (firstCall [[104, 105]]).returned = [[104, 105]] := by
  have hsize : recvBufferSize = 65536 := rfl
  obtain ⟨⟨hc, -, hstream, -⟩, hunread⟩ := firstCall_holds [104, 105] []
    (by decide) (by decide) (by rw [hsize]; decide)
  rw [hunread, List.append_nil, frame_nil] at hstream
  have hroom : (firstCall [[104, 105]]).conn.recvLen < recvBufferSize - 1 := by
    rw [← content_length, hstream, hsize]
    decide
  refine (closes_after_all_iff accepted (by decide) (firstCall_run [[104, 105]])
    (closes_of_closed hc hunread hroom)).mpr ⟨?_, by decide⟩
  rw [hstream]
  exact List.not_mem_nil

/-- Two messages arrive in one piece and the client hangs up: the call after the first message
reports the disconnect, and the second message is never returned. -/
theorem second_message_lost :
    Run Step (start (ipcServerInit (some 3)).2 4 [[97], [98]]) [()] (firstCall [[97], [98]]) ∧
      (firstCall [[97], [98]]).Closes (fun _ => .closed) (fun _ => nul) ∧
      (firstCall [[97], [98]]).returned = [[97]] ∧
      (firstCall [[97], [98]]).returned ≠ [[97], [98]] := by
  have hsize : recvBufferSize = 65536 := rfl
  obtain ⟨⟨hc, -, hstream, hreturned⟩, hunread⟩ := firstCall_holds [97] [[98]]
    (by decide) (by decide) (by rw [hsize]; decide)
  rw [hunread, List.append_nil] at hstream
  have hroom : (firstCall [[97], [98]]).conn.recvLen < recvBufferSize - 1 := by
    rw [← content_length, hstream, hsize]
    decide
  have hfirst : (firstCall [[97], [98]]).returned = [[97]] := by
    rw [hreturned]
    rfl
  exact ⟨firstCall_run _, closes_of_closed hc hunread hroom, hfirst, by rw [hfirst]; decide⟩

end SnipeIt.Ipc
