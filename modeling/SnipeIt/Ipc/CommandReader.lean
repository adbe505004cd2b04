import SnipeIt.Support.JsonText
import SnipeIt.Support.LineStream
import SnipeIt.Support.Run
import SnipeIt.Support.Utf8

/-! # The command reader of the detector (`ipc_client.py`)

The reader decodes every chunk that `recv` returns by itself, and puts the text
together again in a buffer. What `json.loads` makes of a line is a parameter.
-/

namespace SnipeIt.Ipc
open Support LineStream

/-- What `recv` returns: bytes, none if the server has closed the connection, or a timeout. -/
inductive Recv where
  | data (bytes : List UInt8)
  | timeout
  deriving DecidableEq

structure IPCClient where
  recvBuffer : List Char
  connected : Bool
  deriving DecidableEq

variable {γ : Type*} (loads : List Char → Option γ)

/-- The lines of the buffer one after the other, until one is JSON: its value and the rest, or the
incomplete line at the end. `line` is what was read of the first one. -/
def nextCommand (line : List Char) : List Char → Option γ × List Char
  | [] => (none, line)
  | c :: rest =>
    if c = '\n' then
      match loads line with
      | some cmd => (some cmd, rest)
      | none => nextCommand [] rest
    else nextCommand (line ++ [c]) rest

/-- The loop of `wait_for_command`, while `recv` returns `recvs`; `none` if it waits for more. -/
def receive (buffer : List Char) (recvs : List Recv) : Option (Option γ × IPCClient × List Recv) :=
  match nextCommand loads [] buffer with
  | (some cmd, rest) => some (some cmd, ⟨rest, true⟩, recvs)
  | (none, rest) =>
    match recvs with
    | [] => none
    | .timeout :: recvs => some (none, ⟨rest, true⟩, recvs)
    | .data bytes :: recvs =>
      if bytes = [] then some (none, ⟨rest, false⟩, recvs)
      else
        match Utf8.decode bytes with
        | none => some (none, ⟨rest, false⟩, recvs)
        | some text => receive (rest ++ text) recvs

/-- `wait_for_command`, and `check_for_command` with its timeout. -/
def waitForCommand (client : IPCClient) (recvs : List Recv) :
    Option (Option γ × IPCClient × List Recv) :=
  if client.connected then receive loads client.recvBuffer recvs else some (none, client, recvs)

/-- The client with what `recv` is going to return and the commands returned so far. -/
structure Reading (γ : Type*) where
  client : IPCClient
  recvs : List Recv
  returned : List γ

namespace Reading

def start (recvs : List Recv) : Reading γ := ⟨⟨[], true⟩, recvs, []⟩

def Step (s : Reading γ) (result : Option γ) (t : Reading γ) : Prop :=
  waitForCommand loads s.client s.recvs = some (result, t.client, t.recvs) ∧
    t.returned = s.returned ++ result.toList

end Reading

/-- A command that the server sends, a line of JSON. -/
structure Command where
  text : List Char
  value : γ
  isJson : loads text = some value
  oneLine : '\n' ∉ text

variable {loads} in
/-- What the server sends, in characters. -/
def sent (cmds : List (Command loads)) : List Char := frame '\n' (cmds.map (·.text))

def receivedBytes (recvs : List Recv) : List UInt8 :=
  recvs.flatMap fun
    | .data bytes => bytes
    | .timeout => []

/-- Every chunk is text by itself: none ends inside a character. -/
def Decodes (recvs : List Recv) : Prop :=
  ∀ bytes, .data bytes ∈ recvs → (Utf8.decode bytes).isSome

/-! ## One call -/

variable {loads}

theorem nextCommand_incomplete {buffer : List Char} (line : List Char) (h : '\n' ∉ buffer) :
    nextCommand loads line buffer = (none, line ++ buffer) := by
  induction buffer generalizing line with
  | nil => simp [nextCommand]
  | cons c rest ih =>
    obtain ⟨hc, hrest⟩ := not_or.mp (List.mem_cons.not.mp h)
    rw [nextCommand, if_neg (Ne.symm hc), ih (line ++ [c]) hrest]
    simp

theorem nextCommand_line {pre rest : List Char} (line : List Char) (h : '\n' ∉ pre) {cmd : γ}
    (hloads : loads (line ++ pre) = some cmd) :
    nextCommand loads line (pre ++ '\n' :: rest) = (some cmd, rest) := by
  induction pre generalizing line with
  | nil =>
    rw [List.append_nil] at hloads
    simp [nextCommand, hloads]
  | cons c pre ih =>
    obtain ⟨hc, hpre⟩ := not_or.mp (List.mem_cons.not.mp h)
    rw [List.cons_append, nextCommand, if_neg (Ne.symm hc)]
    exact ih (line ++ [c]) hpre (by simpa using hloads)

/-- A buffer that is the head of what was sent has no whole line, or the first command. -/
theorem nextCommand_sent {buffer text : List Char} {cmds : List (Command loads)}
    (h : buffer ++ text = sent cmds) :
    ('\n' ∉ buffer ∧ nextCommand loads [] buffer = (none, buffer)) ∨
    ∃ cmd cmds' rest, cmds = cmd :: cmds' ∧ nextCommand loads [] buffer = (some cmd.value, rest) ∧
      rest ++ text = sent cmds' := by
  by_cases hline : '\n' ∈ buffer
  · obtain ⟨rest, hrest⟩ := firstLine_split hline
    cases cmds with
    | nil =>
      have hnil : buffer = [] := (List.append_eq_nil_iff.mp h).1
      rw [hnil] at hline
      cases hline
    | cons cmd cmds' =>
      have hstream : firstLine '\n' buffer ++ '\n' :: (rest ++ text) =
          cmd.text ++ '\n' :: sent cmds' := by
        rw [← List.cons_append, ← List.append_assoc, ← hrest, h, sent, List.map_cons, frame_cons]
        rfl
      have hfirst : firstLine '\n' buffer = cmd.text := by
        have hlines := congrArg (firstLine '\n') hstream
        have hnone : '\n' ∉ firstLine '\n' buffer := fun hmem => by
          have hne := List.mem_takeWhile_imp hmem
          simp at hne
        rwa [firstLine_append_lf hnone, firstLine_append_lf cmd.oneLine] at hlines
      rw [hfirst] at hstream hrest
      refine .inr ⟨cmd, cmds', rest, rfl, ?_, List.cons.inj (List.append_cancel_left hstream) |>.2⟩
      rw [hrest]
      exact nextCommand_line [] cmd.oneLine cmd.isJson
  · exact .inl ⟨hline, nextCommand_incomplete [] hline⟩

section Receive

variable {buffer rest : List Char} {recvs : List Recv} {bytes : List UInt8}

theorem receive_command {cmd : γ} (h : nextCommand loads [] buffer = (some cmd, rest)) :
    receive loads buffer recvs = some (some cmd, ⟨rest, true⟩, recvs) := by
  rw [receive.eq_def]
  simp only [h]

theorem receive_timeout (h : nextCommand loads [] buffer = (none, rest)) :
    receive loads buffer (.timeout :: recvs) = some (none, ⟨rest, true⟩, recvs) := by
  rw [receive]
  simp only [h]

theorem receive_closed (h : nextCommand loads [] buffer = (none, rest)) :
    receive loads buffer (.data [] :: recvs) = some (none, ⟨rest, false⟩, recvs) := by
  rw [receive]
  simp only [h, if_true]

theorem receive_broken (h : nextCommand loads [] buffer = (none, rest))
    (hdecode : Utf8.decode bytes = none) :
    receive loads buffer (.data bytes :: recvs) = some (none, ⟨rest, false⟩, recvs) := by
  by_cases hbytes : bytes = []
  · rw [hbytes, receive_closed h]
  · rw [receive]
    simp only [h, if_neg hbytes, hdecode]

theorem receive_text {text : List Char} (h : nextCommand loads [] buffer = (none, rest))
    (hbytes : bytes ≠ []) (hdecode : Utf8.decode bytes = some text) :
    receive loads buffer (.data bytes :: recvs) = receive loads (rest ++ text) recvs := by
  rw [receive]
  simp only [h, if_neg hbytes, hdecode]

end Receive

def textOf (recvs : List Recv) : List Char :=
  recvs.flatMap fun
    | .data bytes => (Utf8.decode bytes).getD []
    | .timeout => []

theorem decodes_nil : Decodes [] := fun _ hmem => by cases hmem

theorem Decodes.tail {r : Recv} {recvs : List Recv} (h : Decodes (r :: recvs)) : Decodes recvs :=
  fun bytes hmem => h bytes (List.mem_cons_of_mem r hmem)

theorem Decodes.encode_textOf {recvs : List Recv} (h : Decodes recvs) :
    Utf8.encode (textOf recvs) = receivedBytes recvs := by
  induction recvs with
  | nil => rfl
  | cons r recvs ih =>
    have htail := ih h.tail
    cases r with
    | timeout => exact htail
    | data bytes =>
      obtain ⟨text, htext⟩ := Option.isSome_iff_exists.mp (h bytes List.mem_cons_self)
      have hencode := Utf8.decode_eq_some_iff.mp htext
      have hhead : textOf (.data bytes :: recvs) = text ++ textOf recvs := by
        simp [textOf, htext]
      have hbytes : receivedBytes (.data bytes :: recvs) = bytes ++ receivedBytes recvs := by
        simp [receivedBytes]
      rw [hhead, hbytes, Utf8.encode_append, hencode, htail]

/-- The client is connected, and what it holds and what is still to come, before the server
closes, are the commands that have not been returned. -/
structure Live (client : IPCClient) (recvs : List Recv) (cmds : List (Command loads))
    (body : List Recv) : Prop where
  connected : client.connected = true
  recvs : recvs = body ++ [.data []]
  text : client.recvBuffer ++ textOf body = sent cmds
  decodes : Decodes body
  nonempty : ∀ bytes, .data bytes ∈ body → bytes ≠ []

/-- What a call makes of a live client: it returns the next command, or nothing on a timeout, or
the server has closed the connection and there is no command left. -/
inductive Proceeds (cmds : List (Command loads)) (body : List Recv) :
    Option γ → IPCClient → List Recv → Prop where
  | command {client : IPCClient} {recvs body' : List Recv} (cmd : Command loads)
      (cmds' : List (Command loads)) (hcmds : cmds = cmd :: cmds')
      (hlive : Live client recvs cmds' body') (hbody : body'.length ≤ body.length) :
      Proceeds cmds body (some cmd.value) client recvs
  | timeout {client : IPCClient} {recvs body' : List Recv} (hlive : Live client recvs cmds body')
      (hbody : body'.length < body.length) : Proceeds cmds body none client recvs
  | closed {client : IPCClient} {recvs : List Recv} (hcmds : cmds = [])
      (hclosed : client.connected = false) (hrecvs : recvs = []) :
      Proceeds cmds body none client recvs

theorem Proceeds.mono {cmds : List (Command loads)} {body body' : List Recv} {result : Option γ}
    {client : IPCClient} {recvs : List Recv} (h : Proceeds cmds body result client recvs)
    (hbody : body.length ≤ body'.length) : Proceeds cmds body' result client recvs := by
  cases h with
  | command cmd cmds' hcmds hlive hlen => exact .command cmd cmds' hcmds hlive (hlen.trans hbody)
  | timeout hlive hlen => exact .timeout hlive (hlen.trans_le hbody)
  | closed hcmds hclosed hrecvs => exact .closed hcmds hclosed hrecvs

theorem receive_proceeds {buffer : List Char} {cmds : List (Command loads)} {body : List Recv}
    (h : buffer ++ textOf body = sent cmds) (hdecodes : Decodes body)
    (hnonempty : ∀ bytes, .data bytes ∈ body → bytes ≠ []) :
    ∃ result client recvs,
      receive loads buffer (body ++ [.data []]) = some (result, client, recvs) ∧
      Proceeds cmds body result client recvs := by
  induction body generalizing buffer with
  | nil =>
    rcases nextCommand_sent h with ⟨hline, hnext⟩ | ⟨cmd, cmds', rest, hcmds, hnext, hrest⟩
    · refine ⟨none, _, [], receive_closed hnext, .closed ?_ rfl rfl⟩
      cases cmds with
      | nil => rfl
      | cons cmd cmds' =>
        rw [textOf, List.flatMap_nil, List.append_nil, sent, List.map_cons, frame_cons] at h
        exact absurd (by simp [h]) hline
    · exact ⟨_, _, _, receive_command hnext,
        .command cmd cmds' hcmds ⟨rfl, rfl, hrest, hdecodes, hnonempty⟩ le_rfl⟩
  | cons r body ih =>
    rcases nextCommand_sent h with ⟨-, hnext⟩ | ⟨cmd, cmds', rest, hcmds, hnext, hrest⟩
    · have hnonempty' : ∀ bytes, .data bytes ∈ body → bytes ≠ [] := fun bytes hmem =>
        hnonempty bytes (List.mem_cons_of_mem r hmem)
      cases r with
      | timeout =>
        exact ⟨_, _, _, receive_timeout hnext,
          .timeout ⟨rfl, rfl, h, hdecodes.tail, hnonempty'⟩ (Nat.lt_succ_self _)⟩
      | data bytes =>
        obtain ⟨text, htext⟩ := Option.isSome_iff_exists.mp (hdecodes bytes List.mem_cons_self)
        have hbytes := hnonempty bytes List.mem_cons_self
        have hrest : (buffer ++ text) ++ textOf body = sent cmds := by
          rw [← h, List.append_assoc]
          simp [textOf, htext]
        obtain ⟨result, client, recvs, hreceive, hproceeds⟩ := ih hrest hdecodes.tail hnonempty'
        refine ⟨result, client, recvs, ?_, hproceeds.mono (Nat.le_succ _)⟩
        rw [List.cons_append, receive_text hnext hbytes htext, hreceive]
    · exact ⟨_, _, _, receive_command hnext,
        .command cmd cmds' hcmds ⟨rfl, rfl, hrest, hdecodes, hnonempty⟩ le_rfl⟩

namespace Reading

variable {s t : Reading γ} {cmds : List (Command loads)}

/-- Either the client is live and the rest of the commands is to come, or they have all been
returned and the server has closed the connection. -/
def Reads (cmds : List (Command loads)) (s : Reading γ) : Prop :=
  (∃ (cmds' : List (Command loads)) (body : List Recv), Live s.client s.recvs cmds' body ∧
    s.returned ++ cmds'.map (·.value) = cmds.map (·.value)) ∨
  (s.client.connected = false ∧ s.recvs = [] ∧ s.returned = cmds.map (·.value))

/-- A live client has a call that returns. -/
theorem live_step {cmds' : List (Command loads)} {body : List Recv}
    (h : Live s.client s.recvs cmds' body) :
    ∃ result t, Step loads s result t ∧ Proceeds cmds' body result t.client t.recvs := by
  obtain ⟨result, client, recvs, hreceive, hproceeds⟩ :=
    receive_proceeds h.text h.decodes h.nonempty
  refine ⟨result, ⟨client, recvs, s.returned ++ result.toList⟩, ⟨?_, rfl⟩, hproceeds⟩
  rw [waitForCommand, if_pos h.connected, h.recvs, hreceive]

theorem step_unique {result result' : Option γ} {t' : Reading γ} (h : Step loads s result t)
    (h' : Step loads s result' t') : result = result' ∧ t = t' := by
  obtain ⟨hcall, hreturned⟩ := h
  obtain ⟨hcall', hreturned'⟩ := h'
  rw [hcall, Option.some.injEq, Prod.mk.injEq, Prod.mk.injEq] at hcall'
  obtain ⟨rfl, hclient, hrecvs⟩ := hcall'
  cases t
  cases t'
  simp_all

theorem Reads.step {result : Option γ} (h : Reads cmds s) (hstep : Step loads s result t) :
    Reads cmds t := by
  rcases h with ⟨cmds', body, hlive, hvalues⟩ | ⟨hclosed, hrecvs, hvalues⟩
  · obtain ⟨result', t', hstep', hproceeds⟩ := live_step hlive
    obtain ⟨rfl, rfl⟩ := step_unique hstep hstep'
    have hreturned := hstep.2
    cases hproceeds with
    | command cmd cmds'' hcmds hlive' =>
      refine .inl ⟨cmds'', _, hlive', ?_⟩
      rw [hreturned, ← hvalues, hcmds]
      simp
    | timeout hlive' =>
      refine .inl ⟨cmds', _, hlive', ?_⟩
      rw [hreturned, ← hvalues]
      simp
    | closed hcmds hclosed hrecvs =>
      refine .inr ⟨hclosed, hrecvs, ?_⟩
      rw [hreturned, ← hvalues, hcmds]
      simp
  · obtain ⟨hcall, hreturned⟩ := hstep
    rw [waitForCommand, if_neg (by simp [hclosed]), Option.some.injEq, Prod.mk.injEq,
      Prod.mk.injEq] at hcall
    obtain ⟨rfl, hclient, hrest⟩ := hcall
    exact .inr ⟨hclient ▸ hclosed, hrest ▸ hrecvs, by rw [hreturned, ← hvalues]; simp⟩

/-- Calls go on until the server has closed the connection. -/
theorem live_closes {n : ℕ} {cmds' : List (Command loads)} {body : List Recv}
    (h : Live s.client s.recvs cmds' body) (hn : cmds'.length + body.length ≤ n) :
    ∃ results t, Run (Step loads) s results t ∧ t.client.connected = false := by
  induction n generalizing s cmds' body with
  | zero =>
    obtain ⟨result, t, hstep, hproceeds⟩ := live_step h
    cases hproceeds with
    | command cmd cmds'' hcmds => simp [hcmds] at hn
    | timeout _ hbody => omega
    | closed _ hclosed _ => exact ⟨_, t, Run.single hstep, hclosed⟩
  | succ n ih =>
    obtain ⟨result, t, hstep, hproceeds⟩ := live_step h
    cases hproceeds with
    | command cmd cmds'' hcmds hlive hbody =>
      obtain ⟨results, u, hrun, hclosed⟩ := ih hlive (by simp [hcmds] at hn; omega)
      exact ⟨_, u, Run.cons hstep hrun, hclosed⟩
    | timeout hlive hbody =>
      obtain ⟨results, u, hrun, hclosed⟩ := ih hlive (by omega)
      exact ⟨_, u, Run.cons hstep hrun, hclosed⟩
    | closed _ hclosed _ => exact ⟨_, t, Run.single hstep, hclosed⟩

/-- What has been received of `all`, whether or not the client is still connected: chunks that are
text, and at the end what has ended the connection. -/
inductive Received (all : List Recv) : Bool → List Recv → Prop where
  | connected {front recvs : List Recv} (hall : all = front ++ recvs) (h : Decodes front) :
      Received all true recvs
  | ended {front recvs : List Recv} (bytes : List UInt8)
      (hall : all = front ++ .data bytes :: recvs) (h : Decodes front)
      (hbytes : bytes = [] ∨ Utf8.decode bytes = none) : Received all false recvs

theorem Received.cons {r : Recv} {all recvs : List Recv} {connected : Bool}
    (h : Received all connected recvs) (hr : Decodes [r]) :
    Received (r :: all) connected recvs := by
  have hcons {front : List Recv} (hfront : Decodes front) : Decodes (r :: front) :=
    fun bytes hmem => (List.mem_cons.mp hmem).elim
      (fun heq => hr bytes (heq ▸ List.mem_cons_self)) (hfront bytes)
  cases h with
  | connected hall hfront => exact .connected (congrArg (r :: ·) hall) (hcons hfront)
  | ended bytes hall hfront hbytes =>
    exact .ended bytes (congrArg (r :: ·) hall) (hcons hfront) hbytes

theorem Received.append {front all recvs : List Recv} {connected : Bool}
    (h : Received all connected recvs) (hfront : Decodes front) :
    Received (front ++ all) connected recvs := by
  induction front with
  | nil => exact h
  | cons r front ih =>
    refine (ih hfront.tail).cons fun bytes hmem => ?_
    rw [← List.mem_singleton.mp hmem] at hfront
    exact hfront bytes List.mem_cons_self

theorem receive_received {buffer : List Char} {recvs recvs' : List Recv} {result : Option γ}
    {client : IPCClient} (h : receive loads buffer recvs = some (result, client, recvs')) :
    Received recvs client.connected recvs' := by
  induction recvs generalizing buffer with
  | nil =>
    rcases hnext : nextCommand loads [] buffer with ⟨_ | cmd, rest⟩
    · rw [receive] at h
      simp only [hnext] at h
      cases h
    · rw [receive_command hnext] at h
      cases h
      exact .connected (List.nil_append _).symm decodes_nil
  | cons r recvs ih =>
    rcases hnext : nextCommand loads [] buffer with ⟨_ | cmd, rest⟩
    · cases r with
      | timeout =>
        rw [receive_timeout hnext] at h
        cases h
        have hall : .timeout :: recvs' = [.timeout] ++ recvs' := rfl
        exact .connected hall fun bytes hmem => by simp at hmem
      | data bytes =>
        by_cases hbytes : bytes = []
        · rw [hbytes, receive_closed hnext] at h
          cases h
          exact .ended bytes (List.nil_append _).symm decodes_nil (.inl hbytes)
        · cases hdecode : Utf8.decode bytes with
          | none =>
            rw [receive_broken hnext hdecode] at h
            cases h
            exact .ended bytes (List.nil_append _).symm decodes_nil (.inr hdecode)
          | some text =>
            rw [receive_text hnext hbytes hdecode] at h
            refine (ih h).cons fun bytes' hmem => ?_
            simp only [List.mem_singleton, Recv.data.injEq] at hmem
            rw [hmem, hdecode]
            rfl
    · rw [receive_command hnext] at h
      cases h
      exact .connected (List.nil_append _).symm decodes_nil

theorem run_received {recvs : List Recv} {results : List (Option γ)}
    (h : Run (Step loads) (start recvs) results s) :
    Received recvs s.client.connected s.recvs := by
  induction h with
  | nil => exact .connected (List.nil_append _).symm decodes_nil
  | @snoc results t result u _ hstep ih =>
    obtain ⟨hcall, -⟩ := hstep
    by_cases hconnected : t.client.connected
    · rw [waitForCommand, if_pos hconnected] at hcall
      rw [hconnected] at ih
      cases ih with
      | connected hall hfront =>
        rw [hall]
        exact (receive_received hcall).append hfront
    · rw [waitForCommand, if_neg hconnected, Option.some.injEq, Prod.mk.injEq,
        Prod.mk.injEq] at hcall
      rw [← hcall.2.1, ← hcall.2.2]
      exact ih

variable (loads) in
/-- The sequence of the commands that are returned is the one sent, and the client is connected
until the server closes: whatever calls are made, they return the commands in their order, and the
connection ends only with the last of `recvs`; and it does end. -/
structure Faithful (recvs : List Recv) (values : List γ) : Prop where
  inOrder : ∀ results s, Run (Step loads) (start recvs) results s → s.returned <+: values
  connected : ∀ results s, Run (Step loads) (start recvs) results s →
    s.client.connected = false → s.recvs = [] ∧ s.returned = values
  ends : ∃ results s, Run (Step loads) (start recvs) results s ∧ s.client.connected = false

theorem Reads.inOrder (h : Reads cmds s) : s.returned <+: cmds.map (·.value) := by
  rcases h with ⟨cmds', body, -, hvalues⟩ | ⟨-, -, hvalues⟩
  · exact ⟨_, hvalues⟩
  · exact ⟨[], by rw [hvalues, List.append_nil]⟩

end Reading

variable {cmds : List (Command loads)} {body : List Recv}

/-- However `recv` splits the bytes of the commands, and however often it times out, the reader
returns the commands in order and stays connected until the server closes exactly when no chunk
ends inside a character. -/
theorem command_reader_iff (hsent : receivedBytes body = Utf8.encode (sent cmds))
    (hnonempty : ∀ bytes, .data bytes ∈ body → bytes ≠ []) :
    Reading.Faithful loads (body ++ [.data []]) (cmds.map (·.value)) ↔ Decodes body := by
  constructor
  · intro h
    obtain ⟨results, s, hrun, hclosed⟩ := h.ends
    have hreceived := Reading.run_received hrun
    rw [hclosed, (h.connected results s hrun hclosed).1] at hreceived
    cases hreceived with
    | ended bytes hall hfront =>
      rwa [(List.append_inj' hall rfl).1]
  · intro hdecodes
    have htext : textOf body = sent cmds :=
      Utf8.encode_injective (hdecodes.encode_textOf.trans hsent)
    have hlive : Live (Reading.start (body ++ [.data []]) : Reading γ).client
        (body ++ [.data []]) cmds body := ⟨rfl, rfl, htext, hdecodes, hnonempty⟩
    have hreads {results : List (Option γ)} {s : Reading γ}
        (hrun : Run (Reading.Step loads) (Reading.start (body ++ [.data []])) results s) :
        Reading.Reads cmds s :=
      hrun.invariant (.inl ⟨cmds, body, hlive, rfl⟩) fun _ _ _ h hstep => h.step hstep
    refine ⟨fun results s hrun => (hreads hrun).inOrder, fun results s hrun hclosed => ?_,
      Reading.live_closes hlive le_rfl⟩
    rcases hreads hrun with ⟨cmds', body', hlive', -⟩ | ⟨-, hrecvs, hvalues⟩
    · rw [hlive'.connected] at hclosed
      cases hclosed
    · exact ⟨hrecvs, hvalues⟩

def accented : List Json.Field :=
  [.string "cmd".toList "é".toList (by decide) (by decide)]

def accentedCommand : Command Json.loads where
  text := Json.objectText accented
  value := Json.objectValue accented
  isJson := Json.loads_objectText (List.cons_ne_nil _ _)
  oneLine := by decide

/-- The command in two chunks, with a timeout between them. -/
def inTwoChunks (n : ℕ) : List Recv :=
  let bytes := Utf8.encode (sent [accentedCommand])
  [.data (bytes.take n), .timeout, .data (bytes.drop n)]

theorem command_reader_iff_accented :
    Reading.Faithful Json.loads (inTwoChunks 8 ++ [.data []]) [Json.objectValue accented] := by
  have hchunks : ∀ bytes, .data bytes ∈ inTwoChunks 8 →
      bytes = (Utf8.encode (sent [accentedCommand])).take 8 ∨
      bytes = (Utf8.encode (sent [accentedCommand])).drop 8 := by
    intro bytes hmem
    simpa [inTwoChunks] using hmem
  refine (@command_reader_iff _ _ [accentedCommand] (inTwoChunks 8) (by decide) ?_).mpr ?_
  · intro bytes hmem
    rcases hchunks bytes hmem with rfl | rfl <;> decide
  · intro bytes hmem
    rcases hchunks bytes hmem with rfl | rfl <;> decide

/-- Split inside the character, the command is lost and the connection with it. -/
theorem split_character_lost :
    receivedBytes (inTwoChunks 9) = Utf8.encode (sent [accentedCommand]) ∧
    ¬ Reading.Faithful Json.loads (inTwoChunks 9 ++ [.data []]) [Json.objectValue accented] := by
  refine ⟨by decide, fun h => ?_⟩
  have hcall : waitForCommand Json.loads ⟨[], true⟩ (inTwoChunks 9 ++ [.data []]) =
      some (none, ⟨[], false⟩, (inTwoChunks 9).tail ++ [.data []]) := rfl
  have hlost := h.connected _ ⟨⟨[], false⟩, _, []⟩ (Run.single ⟨hcall, rfl⟩) rfl
  cases hlost.1

end SnipeIt.Ipc
