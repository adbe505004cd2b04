import SnipeIt.WebSocket.Service

/-! # Nested callbacks and the session of a client

The callbacks of `websocket_server.c` one statement at a time. The library runs
them when it is serviced: from the main loop, or from `send_stream_ready`, which
`on_android_connect` calls before the callback of its own connection has
returned. The callbacks that are running are a stack of what each has left.
-/

namespace SnipeIt.WebSocket
open Support

/-- What is left of a callback. The user's callbacks are calls of their own. -/
inductive Stmt where
  | evict (wsi : ℕ)
  | register (wsi : ℕ)
  | onConnect (ready : Option (List UInt8))
  | onDisconnect
  | sendReady (text : List UInt8)
  | service
  | forget (wsi : ℕ)
  | write (wsi : ℕ)
  deriving DecidableEq

inductive UserCall where
  | onConnect
  | onDisconnect
  deriving DecidableEq

/-- The server with the callbacks that are running, the innermost one first, and the calls of
`on_connect` and `on_disconnect` so far. -/
structure Callbacks where
  service : Service
  frames : List (List Stmt)
  calls : List UserCall

/-- The library runs a callback, or another part of the program queues a message; the innermost
callback executes its next statement, where the end of `service` is the return from the library;
it returns. -/
inductive CallbackAct where
  | event (ev : Event)
  | run
  | ret

def callback : Event → List Stmt
  | .established wsi ready => [.evict wsi, .register wsi, .onConnect ready]
  | .closed wsi => [.forget wsi]
  | .serverWriteable wsi => [.write wsi]
  | .enqueue _ => []

namespace Service

def forgetClient (s : Service) : Service := { s with server := s.server.reset, pending := [] }

/-- What the library notes when it runs the callback for an event. -/
def noted (s : Service) : Event → Service
  | .established wsi _ => { s with phase := fun c => if c = wsi then .open else s.phase c }
  | .closed wsi =>
    { s with
      phase := fun c => if c = wsi then .closed else s.phase c
      asked := fun c => if c = wsi then false else s.asked c }
  | _ => s

instance decidableEnabled (s : Service) : (ev : Event) → Decidable (s.Enabled ev)
  | .established wsi _ => inferInstanceAs (Decidable (s.phase wsi = .fresh))
  | .closed wsi => inferInstanceAs (Decidable (s.phase wsi = .open))
  | .serverWriteable wsi => inferInstanceAs (Decidable (s.phase wsi = .open ∧ s.asked wsi = true))
  | .enqueue _ => .isTrue trivial

end Service

namespace Callbacks

def init : Callbacks := ⟨.init, [], []⟩

def serviced (s : Callbacks) : Bool :=
  match s.frames with
  | [] => true
  | (.service :: _) :: _ => true
  | _ => false

/-- A statement of the innermost callback, which has `rest` left after it. -/
def exec (lwsPre : ℕ) (s : Callbacks) (rest : List Stmt) (outer : List (List Stmt)) :
    Stmt → Callbacks
  | .evict wsi =>
    if s.service.server.clientConnected ∧ s.service.server.clientWsi ≠ none ∧
        s.service.server.clientWsi ≠ some wsi then
      { s with service := s.service.forgetClient, frames := (.onDisconnect :: rest) :: outer }
    else { s with frames := rest :: outer }
  | .register wsi => { s with service := s.service.register wsi, frames := rest :: outer }
  | .onConnect ready =>
    { service := { s.service with androidConnected := true }
      frames :=
        match ready with
        | none => rest :: outer
        | some text => (.sendReady text :: .service :: rest) :: outer
      calls := s.calls ++ [.onConnect] }
  | .onDisconnect =>
    { service := { s.service with androidConnected := false }
      frames := rest :: outer
      calls := s.calls ++ [.onDisconnect] }
  | .sendReady text =>
    { s with service := (s.service.queueMessage text).2, frames := rest :: outer }
  | .service => { s with frames := rest :: outer }
  | .forget wsi =>
    if s.service.server.clientWsi = some wsi then
      { s with service := s.service.forgetClient, frames := (.onDisconnect :: rest) :: outer }
    else { s with frames := rest :: outer }
  | .write wsi =>
    { s with service := s.service.serverWriteable lwsPre wsi, frames := rest :: outer }

def apply (lwsPre : ℕ) (s : Callbacks) : CallbackAct → Option Callbacks
  | .event (.enqueue json) => some { s with service := (s.service.queueMessage json).2 }
  | .event ev =>
    if s.serviced then
      some { s with service := s.service.noted ev, frames := callback ev :: s.frames }
    else none
  | .run =>
    match s.frames with
    | (stmt :: rest) :: outer => some (s.exec lwsPre rest outer stmt)
    | _ => none
  | .ret =>
    match s.frames with
    | [] :: outer => some { s with frames := outer }
    | _ => none

/-- A step, where the library establishes a connection once and closes it at most once. -/
def Step (lwsPre : ℕ) (s : Callbacks) (a : CallbackAct) (t : Callbacks) : Prop :=
  (∀ ev, a = .event ev → s.service.Enabled ev) ∧ s.apply lwsPre a = some t

/-! ## The invariant -/

/-- `on_connect` and `on_disconnect` by turns, beginning with `on_connect`. -/
def Alternating (calls : List UserCall) : Prop :=
  ∀ i (h : i < calls.length), calls[i] = if i % 2 = 0 then .onConnect else .onDisconnect

/-- The session is between two callbacks of the user: they agree with the server. -/
structure Settled (s : Service) (calls : List UserCall) : Prop where
  android : s.androidConnected = s.server.clientConnected
  calls : calls.length % 2 = if s.androidConnected then 1 else 0

inductive Place (s : Service) (calls : List UserCall) : List Stmt → Prop where
  | entered (wsi : ℕ) (ready : Option (List UInt8)) (hopen : s.phase wsi ≠ .fresh)
      (hother : s.server.clientWsi ≠ some wsi) (h : Settled s calls) :
      Place s calls [.evict wsi, .register wsi, .onConnect ready]
  | evicted (wsi : ℕ) (ready : Option (List UInt8)) (hopen : s.phase wsi ≠ .fresh)
      (hnone : s.server.clientWsi = none) (h : calls.length % 2 = 1) :
      Place s calls [.onDisconnect, .register wsi, .onConnect ready]
  | free (wsi : ℕ) (ready : Option (List UInt8)) (hopen : s.phase wsi ≠ .fresh)
      (hnone : s.server.clientWsi = none) (h : Settled s calls) :
      Place s calls [.register wsi, .onConnect ready]
  | registered (ready : Option (List UInt8)) (hsome : s.server.clientWsi ≠ none)
      (h : calls.length % 2 = 0) : Place s calls [.onConnect ready]
  | ready (text : List UInt8) (h : Settled s calls) : Place s calls [.sendReady text, .service]
  | serviced (h : Settled s calls) : Place s calls [.service]
  | closing (wsi : ℕ) (h : Settled s calls) : Place s calls [.forget wsi]
  | forgotten (hnone : s.server.clientWsi = none) (h : calls.length % 2 = 1) :
      Place s calls [.onDisconnect]
  | writing (wsi : ℕ) (h : Settled s calls) : Place s calls [.write wsi]
  | done (h : Settled s calls) : Place s calls []

/-- The stack: the callbacks below the innermost one wait for the library to return. -/
def Placed (s : Service) (calls : List UserCall) : List (List Stmt) → Prop
  | [] => Settled s calls
  | frame :: outer => Place s calls frame ∧ ∀ waiting ∈ outer, waiting = [.service]

/-- The bookkeeping of the server and the place of every callback. -/
structure Booked (s : Callbacks) : Prop where
  connected : s.service.server.clientConnected = true ↔ s.service.server.clientWsi ≠ none
  empty : s.service.server.clientWsi = none → s.service.server.queue.count = 0
  known : ∀ wsi, s.service.server.clientWsi = some wsi → s.service.phase wsi ≠ .fresh
  alternating : Alternating s.calls
  placed : Placed s.service s.calls s.frames

variable {lwsPre : ℕ} {s t : Callbacks} {u v : Service} {calls : List UserCall}

/-- The client is the same one, and if there is none the queue got no message. -/
structure SameClient (u v : Service) : Prop where
  wsi : v.server.clientWsi = u.server.clientWsi
  connected : v.server.clientConnected = u.server.clientConnected
  android : v.androidConnected = u.androidConnected
  phase : v.phase = u.phase
  queue : u.server.clientWsi = none → u.server.queue.count = 0 → v.server.queue.count = 0

theorem queueMessage_same (u : Service) (json : List UInt8) :
    SameClient u (u.queueMessage json).2 := by
  rcases u.queueMessage_cases json with ⟨hok, heq⟩ | ⟨-, heq⟩
  · have hclient := wsQueueMessage_client u.server json
    have hsome := ((wsQueueMessage_accepts_iff u.server json).mp hok).2.1
    rw [heq]
    exact ⟨hclient.1, hclient.2, rfl, rfl, fun hnone => absurd hnone hsome⟩
  · rw [heq]
    exact ⟨rfl, rfl, rfl, rfl, fun _ h => h⟩

theorem serverWriteable_same (lwsPre : ℕ) (u : Service) (wsi : ℕ) :
    SameClient u (u.serverWriteable lwsPre wsi) := by
  unfold Service.serverWriteable
  split_ifs with hpos
  · refine ⟨rfl, rfl, rfl, rfl, fun _ hempty => ?_⟩
    rw [hempty] at hpos
    cases hpos
  · exact ⟨rfl, rfl, rfl, rfl, fun _ h => h⟩

/-- With a client the last call is that of its connection. -/
theorem Settled.odd (h : Settled u calls) (hclient : u.server.clientConnected = true) :
    calls.length % 2 = 1 := by
  simpa [h.android, hclient] using h.calls

theorem Settled.even (h : Settled u calls) (hclient : u.server.clientConnected = false) :
    calls.length % 2 = 0 := by
  simpa [h.android, hclient] using h.calls

theorem Settled.same (h : Settled u calls) (hsame : SameClient u v) : Settled v calls :=
  ⟨by rw [hsame.android, hsame.connected, h.android], by rw [hsame.android, h.calls]⟩

theorem Place.same {frame : List Stmt} (h : Place u calls frame) (hsame : SameClient u v) :
    Place v calls frame := by
  cases h with
  | entered wsi ready hopen hother h =>
    exact .entered wsi ready (hsame.phase ▸ hopen) (hsame.wsi ▸ hother) (h.same hsame)
  | evicted wsi ready hopen hnone h =>
    exact .evicted wsi ready (hsame.phase ▸ hopen) (hsame.wsi ▸ hnone) h
  | free wsi ready hopen hnone h =>
    exact .free wsi ready (hsame.phase ▸ hopen) (hsame.wsi ▸ hnone) (h.same hsame)
  | registered ready hsome h => exact .registered ready (hsame.wsi ▸ hsome) h
  | ready text h => exact .ready text (h.same hsame)
  | serviced h => exact .serviced (h.same hsame)
  | closing wsi h => exact .closing wsi (h.same hsame)
  | forgotten hnone h => exact .forgotten (hsame.wsi ▸ hnone) h
  | writing wsi h => exact .writing wsi (h.same hsame)
  | done h => exact .done (h.same hsame)

/-- What leaves the client alone keeps the bookkeeping. -/
theorem Booked.same (h : s.Booked) (hsame : SameClient s.service v) {frames : List (List Stmt)}
    (hplaced : Placed v s.calls frames) : Booked { s with service := v, frames := frames } where
  connected := by
    rw [hsame.connected, hsame.wsi]
    exact h.connected
  empty hnone := hsame.queue (hsame.wsi ▸ hnone) (h.empty (hsame.wsi ▸ hnone))
  known wsi hwsi := by
    rw [hsame.phase]
    exact h.known wsi (hsame.wsi ▸ hwsi)
  alternating := h.alternating
  placed := hplaced

/-- While the library is being serviced the session is settled, and all callbacks wait. -/
theorem Booked.serviced (h : s.Booked) (hserviced : s.serviced = true) :
    Settled s.service s.calls ∧ ∀ waiting ∈ s.frames, waiting = [.service] := by
  have hplaced := h.placed
  revert hserviced
  unfold Callbacks.serviced
  split
  · next hnone =>
    rw [hnone] at hplaced
    exact fun _ => ⟨hplaced, by simp [hnone]⟩
  · next rest outer hframes =>
    rw [hframes] at hplaced
    intro _
    obtain ⟨hplace, houter⟩ := hplaced
    cases hplace with
    | serviced hsettled =>
      refine ⟨hsettled, fun waiting hmem => ?_⟩
      rw [hframes] at hmem
      rcases List.mem_cons.mp hmem with rfl | hmem
      · rfl
      · exact houter waiting hmem
  · exact fun hfalse => by cases hfalse

theorem Alternating.concat {calls : List UserCall} (h : Alternating calls) {call : UserCall}
    (hcall : call = if calls.length % 2 = 0 then .onConnect else .onDisconnect) :
    Alternating (calls ++ [call]) := by
  intro i hi
  rw [List.length_append, List.length_singleton] at hi
  rcases Nat.lt_succ_iff_lt_or_eq.mp hi with hlt | rfl
  · rw [List.getElem_append_left hlt]
    exact h i hlt
  · rw [List.getElem_concat_length rfl]
    exact hcall

theorem Booked.event (h : s.Booked) {ev : Event} (henabled : s.service.Enabled ev)
    (hserviced : s.serviced = true) (hev : ∀ json, ev ≠ .enqueue json) :
    Booked { s with service := s.service.noted ev, frames := callback ev :: s.frames } := by
  obtain ⟨hsettled, hwaiting⟩ := h.serviced hserviced
  cases ev with
  | established wsi ready =>
    have hother : s.service.server.clientWsi ≠ some wsi := fun hsome => h.known wsi hsome henabled
    refine ⟨h.connected, h.empty, fun c hc => ?_, h.alternating,
      .entered wsi ready (by simp [Service.noted]) hother ⟨hsettled.android, hsettled.calls⟩,
      hwaiting⟩
    simp only [Service.noted]
    split_ifs
    · simp
    · exact h.known c hc
  | closed wsi =>
    refine ⟨h.connected, h.empty, fun c hc => ?_, h.alternating,
      .closing wsi ⟨hsettled.android, hsettled.calls⟩, hwaiting⟩
    simp only [Service.noted]
    split_ifs
    · simp
    · exact h.known c hc
  | serverWriteable wsi =>
    exact ⟨h.connected, h.empty, h.known, h.alternating, .writing wsi hsettled, hwaiting⟩
  | enqueue json => exact absurd rfl (hev json)

/-- The client is forgotten while the user's callback has not run yet. -/
theorem Booked.forgetClient (h : s.Booked) {frames : List (List Stmt)}
    (hplaced : Placed s.service.forgetClient s.calls frames) :
    Booked { s with service := s.service.forgetClient, frames := frames } where
  connected := by simp [Service.forgetClient, WebSocketServer.reset]
  empty _ := rfl
  known wsi hwsi := by cases hwsi
  alternating := h.alternating
  placed := hplaced

theorem Booked.not_connected (h : s.Booked) (hnone : s.service.server.clientWsi = none) :
    s.service.server.clientConnected = false := by
  rw [Bool.eq_false_iff]
  exact fun hconnected => h.connected.mp hconnected hnone

theorem Booked.onDisconnect (h : s.Booked) (hnone : s.service.server.clientWsi = none)
    (hodd : s.calls.length % 2 = 1) :
    Settled { s.service with androidConnected := false } (s.calls ++ [.onDisconnect]) ∧
      Alternating (s.calls ++ [.onDisconnect]) := by
  refine ⟨⟨(h.not_connected hnone).symm, ?_⟩, h.alternating.concat (by simp [hodd])⟩
  simp only [List.length_append, List.length_singleton, Bool.false_eq_true, if_false]
  omega

theorem Booked.exec (h : s.Booked) {stmt : Stmt} {rest : List Stmt} {outer : List (List Stmt)}
    (hframes : s.frames = (stmt :: rest) :: outer) : (s.exec lwsPre rest outer stmt).Booked := by
  have hplaced := h.placed
  rw [hframes] at hplaced
  obtain ⟨hplace, houter⟩ := hplaced
  cases hplace with
  | entered wsi ready hopen hother hsettled =>
    by_cases hold : s.service.server.clientConnected ∧ s.service.server.clientWsi ≠ none ∧
        s.service.server.clientWsi ≠ some wsi
    · rw [Callbacks.exec, if_pos hold]
      exact h.forgetClient ⟨.evicted wsi ready hopen rfl (hsettled.odd hold.1), houter⟩
    · rw [Callbacks.exec, if_neg hold]
      have hnone : s.service.server.clientWsi = none := by
        by_contra hsome
        exact hold ⟨h.connected.mpr hsome, hsome, hother⟩
      exact ⟨h.connected, h.empty, h.known, h.alternating, .free wsi ready hopen hnone hsettled,
        houter⟩
  | evicted wsi ready hopen hnone hodd =>
    obtain ⟨hsettled, halternating⟩ := h.onDisconnect hnone hodd
    exact ⟨h.connected, h.empty, h.known, halternating, .free wsi ready hopen hnone hsettled,
      houter⟩
  | free wsi ready hopen hnone hsettled =>
    have heven : s.calls.length % 2 = 0 := hsettled.even (h.not_connected hnone)
    refine ⟨by simp [Callbacks.exec, Service.register], fun hnone => ?_, fun c hc => ?_,
      h.alternating, .registered ready (Option.some_ne_none wsi) heven, houter⟩
    · cases hnone
    · cases hc
      exact hopen
  | registered ready hsome heven =>
    have hsettled : Settled { s.service with androidConnected := true }
        (s.calls ++ [.onConnect]) := by
      refine ⟨(h.connected.mpr hsome).symm, ?_⟩
      simp only [List.length_append, List.length_singleton, if_true]
      omega
    have halternating : Alternating (s.calls ++ [.onConnect]) :=
      h.alternating.concat (by simp [heven])
    cases ready with
    | none => exact ⟨h.connected, h.empty, h.known, halternating, .done hsettled, houter⟩
    | some text => exact ⟨h.connected, h.empty, h.known, halternating, .ready text hsettled, houter⟩
  | ready text hsettled =>
    have hsame := queueMessage_same s.service text
    exact h.same hsame ⟨.serviced (hsettled.same hsame), houter⟩
  | serviced hsettled =>
    exact ⟨h.connected, h.empty, h.known, h.alternating, .done hsettled, houter⟩
  | closing wsi hsettled =>
    by_cases hclient : s.service.server.clientWsi = some wsi
    · rw [Callbacks.exec, if_pos hclient]
      have hconnected := h.connected.mpr (by rw [hclient]; simp)
      exact h.forgetClient ⟨.forgotten rfl (hsettled.odd hconnected), houter⟩
    · rw [Callbacks.exec, if_neg hclient]
      exact ⟨h.connected, h.empty, h.known, h.alternating, .done hsettled, houter⟩
  | forgotten hnone hodd =>
    obtain ⟨hsettled, halternating⟩ := h.onDisconnect hnone hodd
    exact ⟨h.connected, h.empty, h.known, halternating, .done hsettled, houter⟩
  | writing wsi hsettled =>
    have hsame := serverWriteable_same lwsPre s.service wsi
    exact h.same hsame ⟨.done (hsettled.same hsame), houter⟩

/-- A callback that returns leaves the one that waits for it in the library. -/
theorem Booked.ret (h : s.Booked) {outer : List (List Stmt)} (hframes : s.frames = [] :: outer) :
    Booked { s with frames := outer } := by
  have hplaced := h.placed
  rw [hframes] at hplaced
  obtain ⟨hplace, houter⟩ := hplaced
  cases hplace with
  | done hsettled =>
    refine ⟨h.connected, h.empty, h.known, h.alternating, ?_⟩
    cases outer with
    | nil => exact hsettled
    | cons waiting outer =>
      obtain rfl : waiting = [.service] := houter waiting List.mem_cons_self
      exact ⟨.serviced hsettled, fun waiting hmem => houter waiting (List.mem_cons_of_mem _ hmem)⟩

/-- To queue a message leaves the client alone, whatever callback is running. -/
theorem Booked.enqueue (h : s.Booked) (json : List UInt8) :
    Booked { s with service := (s.service.queueMessage json).2 } := by
  have hsame := queueMessage_same s.service json
  refine h.same hsame ?_
  have hplaced := h.placed
  cases hframes : s.frames with
  | nil =>
    rw [hframes] at hplaced
    exact hplaced.same hsame
  | cons frame outer =>
    rw [hframes] at hplaced
    exact ⟨hplaced.1.same hsame, hplaced.2⟩

theorem Booked.step {a : CallbackAct} (h : s.Booked) (hstep : Step lwsPre s a t) : t.Booked := by
  obtain ⟨henabled, hstep⟩ := hstep
  cases a with
  | event ev =>
    by_cases hev : ∃ json, ev = .enqueue json
    · obtain ⟨json, rfl⟩ := hev
      cases hstep
      exact h.enqueue json
    · push Not at hev
      have happly : s.apply lwsPre (.event ev) =
          if s.serviced then
            some { s with service := s.service.noted ev, frames := callback ev :: s.frames }
          else none := by
        cases ev with
        | enqueue json => exact absurd rfl (hev json)
        | _ => rfl
      rw [happly] at hstep
      split_ifs at hstep with hserviced
      cases hstep
      exact h.event (henabled ev rfl) hserviced hev
  | run =>
    simp only [apply] at hstep
    split at hstep
    · next stmt rest outer hframes =>
      cases hstep
      exact h.exec hframes
    · cases hstep
  | ret =>
    simp only [apply] at hstep
    split at hstep
    · next outer hframes =>
      cases hstep
      exact h.ret hframes
    · cases hstep

theorem init_booked : init.Booked where
  connected := by simp [init, Service.init, wsInit]
  empty _ := rfl
  known wsi hwsi := by cases hwsi
  alternating i hi := absurd hi (Nat.not_lt_zero i)
  placed := ⟨rfl, rfl⟩

/-! ## A callback as a whole -/

theorem step_run {stmt : Stmt} {rest : List Stmt} {outer : List (List Stmt)}
    (hframes : s.frames = (stmt :: rest) :: outer) :
    Step lwsPre s .run (s.exec lwsPre rest outer stmt) := by
  refine ⟨by simp, ?_⟩
  simp only [apply, hframes]

/-- From `s` the innermost callback runs until it returns or services the library, with the
service in `v`. -/
def RunsTo (lwsPre : ℕ) (s : Callbacks) (outer : List (List Stmt)) (v : Service) : Prop :=
  ∃ t n frame, Run (Step lwsPre) s (List.replicate n .run) t ∧ t.frames = frame :: outer ∧
    (frame = [] ∨ frame = [.service]) ∧ t.service = v

theorem RunsTo.cons {stmt : Stmt} {rest : List Stmt} {outer : List (List Stmt)}
    (hframes : s.frames = (stmt :: rest) :: outer)
    (h : RunsTo lwsPre (s.exec lwsPre rest outer stmt) outer v) : RunsTo lwsPre s outer v := by
  obtain ⟨t, n, frame, hrun, ht⟩ := h
  exact ⟨t, n + 1, frame, Run.cons (step_run hframes) hrun, ht⟩

theorem RunsTo.here {frame : List Stmt} {outer : List (List Stmt)}
    (hframes : s.frames = frame :: outer) (hframe : frame = [] ∨ frame = [.service]) :
    RunsTo lwsPre s outer s.service :=
  ⟨s, 0, frame, .nil, hframes, hframe, rfl⟩

theorem register_runs {wsi : ℕ} {ready : Option (List UInt8)} {outer : List (List Stmt)}
    (hframes : s.frames = [.register wsi, .onConnect ready] :: outer) :
    RunsTo lwsPre s outer ((s.service.register wsi).onAndroidConnect ready) := by
  refine .cons hframes (.cons rfl ?_)
  cases ready with
  | none => exact .here rfl (.inl rfl)
  | some text => exact .cons rfl (.here rfl (.inr rfl))

/-- Alone with the server, the callback of an event does what the event does to the service. -/
theorem callback_runs {ev : Event} {outer : List (List Stmt)}
    (hframes : s.frames = callback ev :: outer) :
    RunsTo lwsPre s outer (match ev with
      | .established wsi ready => s.service.established wsi ready
      | .closed wsi => s.service.closed wsi
      | .serverWriteable wsi => s.service.serverWriteable lwsPre wsi
      | .enqueue _ => s.service) := by
  cases ev with
  | established wsi ready =>
    refine .cons hframes ?_
    dsimp only
    by_cases hold : s.service.server.clientConnected ∧ s.service.server.clientWsi ≠ none ∧
        s.service.server.clientWsi ≠ some wsi
    · rw [Callbacks.exec, if_pos hold, Service.established, if_pos hold]
      exact .cons rfl (register_runs rfl)
    · rw [Callbacks.exec, if_neg hold, Service.established, if_neg hold]
      exact register_runs rfl
  | closed wsi =>
    refine .cons hframes ?_
    dsimp only
    by_cases hclient : s.service.server.clientWsi = some wsi
    · rw [Callbacks.exec, if_pos hclient, Service.closed, if_pos hclient]
      exact .cons rfl (.here rfl (.inl rfl))
    · rw [Callbacks.exec, if_neg hclient, Service.closed, if_neg hclient]
      exact .here rfl (.inl rfl)
  | serverWriteable wsi => exact .cons hframes (.here rfl (.inl rfl))
  | enqueue json => exact .here hframes (.inl rfl)

/-- The callback of a connection that is not the client's returns with the server as it was. -/
theorem closed_of_other {wsi : ℕ} {r : Callbacks} {u : Callbacks}
    (hother : s.service.server.clientWsi ≠ some wsi)
    (hcall : Step lwsPre s (.event (.closed wsi)) t) (hrun : Step lwsPre t .run u)
    (hret : Step lwsPre u .ret r) :
    r = { s with service := s.service.noted (.closed wsi) } := by
  obtain ⟨-, hcall⟩ := hcall
  obtain ⟨-, hrun⟩ := hrun
  obtain ⟨-, hret⟩ := hret
  simp only [apply] at hcall
  split_ifs at hcall
  cases hcall
  cases hrun
  have hexec : Callbacks.exec lwsPre { s with
        service := s.service.noted (.closed wsi), frames := callback (.closed wsi) :: s.frames }
      [] s.frames (.forget wsi) =
      { s with service := s.service.noted (.closed wsi), frames := [] :: s.frames } :=
    if_neg hother
  rw [hexec] at hret
  cases hret
  rfl

/-- The bookkeeping of a session, however the callbacks are nested. -/
theorem session_bookkeeping {acts : List CallbackAct} (h : Run (Step lwsPre) init acts s) :
    Alternating s.calls ∧
    (s.service.server.clientConnected = true ↔ s.service.server.clientWsi ≠ none) ∧
    (s.frames = [] → s.service.androidConnected = s.service.server.clientConnected) ∧
    (∀ wsi t u r, s.service.server.clientWsi ≠ some wsi →
      Step lwsPre s (.event (.closed wsi)) t → Step lwsPre t .run u → Step lwsPre u .ret r →
      r.service.server = s.service.server ∧
        r.service.androidConnected = s.service.androidConnected ∧
        r.service.pending = s.service.pending ∧ r.calls = s.calls ∧ r.frames = s.frames) ∧
    (s.service.server.clientWsi = none → s.service.server.queue.content = []) := by
  have hbooked : s.Booked := h.invariant init_booked fun _ _ _ hs hstep => hs.step hstep
  refine ⟨hbooked.alternating, hbooked.connected, fun hidle => ?_, ?_, fun hnone => ?_⟩
  · have hplaced := hbooked.placed
    rw [hidle] at hplaced
    exact hplaced.android
  · intro wsi t u r hother hcall hrun hret
    rw [closed_of_other hother hcall hrun hret]
    exact ⟨rfl, rfl, rfl, rfl, rfl⟩
  · have hlength : s.service.server.queue.content.length = 0 := by
      simpa using hbooked.empty hnone
    exact List.length_eq_zero_iff.mp hlength

/-- The library may run the callback, or it is not a callback that is run. -/
def enabled (s : Callbacks) : CallbackAct → Bool
  | .event ev => decide (s.service.Enabled ev)
  | _ => true

/-- Client 1 is evicted, and closed, by callbacks that run before its own has returned. -/
def reconnected : List CallbackAct :=
  [.event (.established 1 (some [97]))] ++ List.replicate 4 .run ++
    [.event (.established 2 none)] ++ List.replicate 4 .run ++ [.ret, .event (.closed 1)] ++
    [.run, .ret, .run, .ret]

theorem session_bookkeeping_reconnected :
    ∃ s, Run (Step 16) init reconnected s ∧ s.frames = [] ∧ s.service.androidConnected = true ∧
      s.calls = [.onConnect, .onDisconnect, .onConnect] ∧ Alternating s.calls ∧
      s.service.androidConnected = s.service.server.clientConnected := by
  have hend :
      (Support.exec (fun s a => if enabled s a then apply 16 s a else none) init reconnected).map
        (fun s => (s.frames, s.service.androidConnected, s.calls)) =
      some ([], true, [.onConnect, .onDisconnect, .onConnect]) := by rfl
  obtain ⟨s, hexec, hs⟩ := Option.map_eq_some_iff.mp hend
  obtain ⟨hframes, handroid, hcalls⟩ : s.frames = [] ∧ s.service.androidConnected = true ∧
      s.calls = [.onConnect, .onDisconnect, .onConnect] := by simpa using hs
  have hrun : Run (Step 16) init reconnected s :=
    (Run.of_exec_guarded hexec).mono fun s a t h => by
      refine ⟨fun ev hev => ?_, h.2⟩
      subst hev
      exact of_decide_eq_true h.1
  have hbook := session_bookkeeping hrun
  exact ⟨s, hrun, hframes, handroid, hcalls, hbook.1, hbook.2.2.1 hframes⟩

end Callbacks

end SnipeIt.WebSocket
