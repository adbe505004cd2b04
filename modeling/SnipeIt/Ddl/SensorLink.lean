import SnipeIt.ActiveObject.Steps
import SnipeIt.ActiveObject.Turns
import SnipeIt.Ddl.SensorCycle
import SnipeIt.Hal.Driver

/-! # A sensor, its timer and its device

The distance or the GPS active object with its queue, its one-shot timer, the
UART driver and the buffer that the device's responses are read into. Every
event, every read and every byte says which entry of the read state it is of.
-/

namespace SnipeIt.Ddl
open ActiveObject Hal Support

/-- An event in the queue, with the attempt whose timer or read has posted it. -/
structure Sent where
  event : Event
  attempt : ℕ
  deriving DecidableEq

/-- What a UART callback does: it posts an event of an attempt to the sensor, or it is of another
module. -/
inductive UartCallback where
  | post (sent : Sent)
  | other
  deriving DecidableEq

/-- A byte that the device has sent: its response, and its place there. -/
structure ResponseByte where
  response : ℕ
  index : ℕ
  deriving DecidableEq

def responseBytes (size response : ℕ) : List ResponseByte :=
  (List.range size).map (⟨response, ·⟩)

/-- A byte of `resp_frame`, with the attempt whose read has put it there. -/
structure FrameByte where
  attempt : ℕ
  byte : ResponseByte
  deriving DecidableEq

/-- `sizeof(TOFSenseFrame)` and `sizeof(UbxNavPvtFrame)`. -/
def frameSize : Module → ℕ
  | .distance => 16
  | .gps => 100
  | _ => 0

/-- How an attempt ended without an accepted frame: on a timeout of the timer that an attempt has
armed, or with a frame that was rejected. -/
inductive AttemptEnd where
  | timedOut (attempt armedBy : ℕ)
  | rejected (attempt : ℕ)
  deriving DecidableEq

def AttemptEnd.attempt : AttemptEnd → ℕ
  | .timedOut attempt _ => attempt
  | .rejected attempt => attempt

/-- What the update state finds when it is entered: the reads into `resp_frame` that are
outstanding, and what is in it. -/
structure Decoding where
  attempt : ℕ
  outstanding : List ℕ
  respFrame : List (Option FrameByte)
  deriving DecidableEq

/-- How often the read state was entered, how the attempts of this cycle have ended, those of the
cycles that gave up, and what the update state has found. -/
structure ReadHistory where
  attempt : ℕ
  ends : List AttemptEnd
  givenUp : List (List AttemptEnd)
  decodings : List Decoding

/-- How the attempt ends on an event in the read state, if the frame is not accepted. -/
def ReadHistory.ended (h : ReadHistory) (sent : Sent) (frameValid : Bool) : List AttemptEnd :=
  match sent.event with
  | .timeout => [.timedOut h.attempt sent.attempt]
  | .frameReceived => if frameValid then [] else [.rejected h.attempt]
  | _ => []

def ReadHistory.note (h : ReadHistory) (before after : Sensor) (calls : List Call) (sent : Sent)
    (frameValid : Bool) (decoding : Decoding) : ReadHistory :=
  let ends := if before.state = .read then h.ends ++ h.ended sent frameValid else []
  { attempt := h.attempt + readEntries calls
    ends
    givenUp :=
      if before.state = .read ∧ after.state = .idle ∧ after.valid = false then h.givenUp ++ [ends]
      else h.givenUp
    decodings :=
      if before.state = .read ∧ sent.event = .frameReceived then h.decodings ++ [decoding]
      else h.decodings }

/-! ## The link -/

structure SensorLink where
  machine : Machine
  thread : Thread
  queue : List Sent
  /-- The attempt that the timer is armed for, once there is a timer. -/
  timer : Option (Option ℕ)
  /-- The running expiry handlers. -/
  handlers : List ℕ
  driver : Driver UartCallback
  /-- Which operations read into `resp_frame`, and for which attempt. -/
  reads : ℕ → Option ℕ
  /-- The reads whose bytes are in `resp_frame`. -/
  delivered : List ℕ
  respFrame : List (Option FrameByte)
  history : ReadHistory

/-- A step of the sensor's thread, its timer, the completion thread or the device, or of another
thread that posts to the sensor or calls the driver. -/
inductive LinkAct where
  | post (event : Event)
  | threadStart (answers : Answers)
  | threadPop (answers : Answers)
  | threadCall (submits : Bool)
  | expire
  | handle (n : ℕ)
  | transfer (device : ℕ) (buffer callback submits : Bool)
  | abort (device : ℕ) (submits : Bool)
  | deliver (n : ℕ) (bytes : List ResponseByte)
  | complete (n : ℕ) (positive : Bool)

namespace SensorLink

def init (m : Module) : SensorLink where
  machine := .created m
  thread := .created
  queue := []
  timer := none
  handlers := []
  driver := .init
  reads := fun _ => none
  delivered := []
  respFrame := List.replicate (frameSize m) none
  history := ⟨0, [], [], []⟩

/-- `util_active_object_post`. -/
def push (l : SensorLink) (sent : Sent) : SensorLink :=
  if l.queue.length < Queue.capacity then { l with queue := l.queue ++ [sent] } else l

/-- The reads into `resp_frame` that will still complete. -/
def outstandingReads (l : SensorLink) : List ℕ :=
  l.driver.outstanding.filter fun number => (l.reads number).isSome

/-- A transfer, which is a read into `resp_frame` for `attempt` or something else. -/
def transfer (entries : ℕ) (l : SensorLink) (device : ℕ) (buffer : Bool)
    (callback : Option UartCallback) (attempt : Option ℕ) (submits : Bool) : SensorLink :=
  { l with
    driver := (l.driver.transfer entries device buffer callback submits).2
    reads := Function.update l.reads l.driver.operations attempt }

def call (entries : ℕ) (l : SensorLink) (submits : Bool) : Call → SensorLink
  | .timerInit _ => { l with timer := some none }
  | .timerArm _ => { l with timer := l.timer.map fun _ => some l.history.attempt }
  | .timerDisarm => { l with timer := l.timer.map fun _ => none }
  | .uartWrite device callback =>
    l.transfer entries device.index true (callback.map (.post ⟨·, l.history.attempt⟩)) none submits
  | .uartRead device callback =>
    l.transfer entries device.index true (callback.map (.post ⟨·, l.history.attempt⟩))
      (some l.history.attempt) submits
  | .uartAbort device =>
    { l with driver := (l.driver.abort entries device.index submits).2 }
  | .publish _ _ => l

def dispatched (l : SensorLink) (sent : Sent) (answers : Answers) : SensorLink :=
  let (machine, calls) := l.machine.dispatch answers sent.event
  { l with
    machine
    thread := .running calls
    history :=
      match l.machine.sensor?, machine.sensor? with
      | some before, some after =>
        l.history.note before after calls sent answers.frameValid
          ⟨l.history.attempt, l.outstandingReads, l.respFrame⟩
      | _, _ => l.history }

def threadPop (l : SensorLink) (answers : Answers) : Option SensorLink :=
  if l.thread = .running [] then
    match l.queue with
    | [] => none
    | sent :: queue =>
      if sent.event = .fsmEnd then some { l with queue, thread := .ended }
      else some ({ l with queue }.dispatched sent answers)
  else none

def callBack (l : SensorLink) : List (Callback UartCallback) → SensorLink
  | [] => l
  | c :: callbacks =>
    match c.callback with
    | .post sent => (l.push sent).callBack callbacks
    | .other => l.callBack callbacks

/-- The kernel writes what a read in flight has received. -/
def deliver (m : Module) (l : SensorLink) (n : ℕ) (bytes : List ResponseByte) :
    Option SensorLink := do
  let entry ← l.driver.inflight[n]?
  let number ← entry.operation
  let attempt ← l.reads number
  if number ∉ l.delivered ∧ 0 < bytes.length ∧ bytes.length ≤ frameSize m then
    some { l with
      delivered := number :: l.delivered
      respFrame := bytes.map (fun byte => some ⟨attempt, byte⟩) ++ l.respFrame.drop bytes.length }
  else none

/-- A read has a positive result exactly when it has delivered bytes. -/
def Results (l : SensorLink) (n : ℕ) (positive : Bool) : Prop :=
  ∀ entry ∈ l.driver.inflight[n]?, ∀ number ∈ entry.operation, (l.reads number).isSome = true →
    (positive = true ↔ number ∈ l.delivered)

instance (l : SensorLink) (n : ℕ) (positive : Bool) : Decidable (l.Results n positive) :=
  inferInstanceAs (Decidable (∀ _ ∈ _, ∀ _ ∈ _, _ → _))

/-- `io_completion_thread` on the completion of entry `n`. -/
def complete (l : SensorLink) (n : ℕ) (positive : Bool) : Option SensorLink :=
  if l.Results n positive then
    (l.driver.complete n positive).map fun driver =>
      { l with driver }.callBack (driver.ran.drop l.driver.ran.length)
  else none

def apply (entries : ℕ) (m : Module) (l : SensorLink) : LinkAct → Option SensorLink
  | .post event =>
    if subscribed m event = true ∨ event = .fsmEnd then some (l.push ⟨event, 0⟩) else none
  | .threadStart answers =>
    if l.thread = .created then
      some { l with
        machine := (l.machine.init answers).1
        thread := .running (l.machine.init answers).2 }
    else none
  | .threadPop answers => l.threadPop answers
  | .threadCall submits =>
    match l.thread with
    | .running (c :: calls) => some (call entries { l with thread := .running calls } submits c)
    | _ => none
  | .expire =>
    match l.timer with
    | some (some attempt) =>
      some { l with timer := some none, handlers := attempt :: l.handlers }
    | _ => none
  | .handle n =>
    (l.handlers[n]?).map fun attempt =>
      { l with handlers := l.handlers.eraseIdx n }.push ⟨.timeout, attempt⟩
  | .transfer device buffer callback submits =>
    some (l.transfer entries device buffer (if callback then some .other else none) none submits)
  | .abort device submits =>
    some { l with driver := (l.driver.abort entries device submits).2 }
  | .deliver n bytes => l.deliver m n bytes
  | .complete n positive => l.complete n positive

def Step (entries : ℕ) (m : Module) (l : SensorLink) (act : LinkAct) (k : SensorLink) : Prop :=
  l.apply entries m act = some k

variable {m : Module} {l k : SensorLink} {entries : ℕ}

/-! ## The queue -/

theorem push_eq (l : SensorLink) (sent : Sent) :
    l.push sent = { l with queue := (l.push sent).queue } := by
  unfold push
  split_ifs <;> rfl

section

variable (l) (sent : Sent)

@[simp] theorem push_machine : (l.push sent).machine = l.machine := by
  rw [push_eq]

@[simp] theorem push_thread : (l.push sent).thread = l.thread := by
  rw [push_eq]

@[simp] theorem push_timer : (l.push sent).timer = l.timer := by
  rw [push_eq]

@[simp] theorem push_handlers : (l.push sent).handlers = l.handlers := by
  rw [push_eq]

@[simp] theorem push_driver : (l.push sent).driver = l.driver := by
  rw [push_eq]

@[simp] theorem push_reads : (l.push sent).reads = l.reads := by
  rw [push_eq]

@[simp] theorem push_delivered : (l.push sent).delivered = l.delivered := by
  rw [push_eq]

@[simp] theorem push_respFrame : (l.push sent).respFrame = l.respFrame := by
  rw [push_eq]

@[simp] theorem push_history : (l.push sent).history = l.history := by
  rw [push_eq]

end

theorem push_queue (l : SensorLink) (sent : Sent) :
    (l.push sent).queue = l.queue ∨ (l.push sent).queue = l.queue ++ [sent] := by
  unfold push
  split_ifs
  · exact .inr rfl
  · exact .inl rfl

theorem mem_push {sent other : Sent} (h : other ∈ (l.push sent).queue) :
    other ∈ l.queue ∨ other = sent := by
  rcases l.push_queue sent with hsame | happend
  · exact .inl (hsame ▸ h)
  · rw [happend] at h
    exact (List.mem_append.mp h).imp_right List.mem_singleton.mp

/-- Nobody else posts the events that end the waiting of a sensor. -/
theorem posted_ne {event : Event} (h : subscribed m event = true ∨ event = .fsmEnd) :
    event ≠ .timeout ∧ event ≠ .frameReceived := by
  rcases h with hsubscribed | rfl
  · constructor
    · rintro rfl
      cases m <;> cases hsubscribed
    · rintro rfl
      cases m <;> cases hsubscribed
  · simp

/-- What every event that is posted by these callbacks keeps, they keep. -/
theorem callBack_keeps {P : SensorLink → Prop} {callbacks : List (Callback UartCallback)}
    (h : P l)
    (hpush : ∀ k c sent, c ∈ callbacks → c.callback = .post sent → P k → P (k.push sent)) :
    P (l.callBack callbacks) := by
  induction callbacks generalizing l with
  | nil => exact h
  | cons c callbacks ih =>
    have hrest : ∀ k c' sent, c' ∈ callbacks → c'.callback = .post sent → P k →
        P (k.push sent) := fun k c' sent hmem => hpush k c' sent (List.mem_cons_of_mem c hmem)
    unfold callBack
    cases hc : c.callback with
    | post sent => exact ih (hpush l c sent List.mem_cons_self hc h) hrest
    | other => exact ih h hrest

/-- Nothing is noted about a machine that reads no sensor, and it stays one. -/
theorem dispatched_none (h : l.machine.sensor? = none) (sent : Sent) (answers : Answers) :
    (l.dispatched sent answers).machine.sensor? = none ∧
      (l.dispatched sent answers).history = l.history := by
  refine ⟨Machine.dispatch_sensor_none h answers sent.event, ?_⟩
  simp [dispatched, h]

theorem dispatched_history {s t : Sensor} {sent : Sent} {answers : Answers}
    (hs : l.machine.sensor? = some s)
    (ht : (l.machine.dispatch answers sent.event).1.sensor? = some t) :
    (l.dispatched sent answers).history =
      l.history.note s t (l.machine.dispatch answers sent.event).2 sent answers.frameValid
        ⟨l.history.attempt, l.outstandingReads, l.respFrame⟩ := by
  simp [dispatched, hs, ht]

/-- A sensor that is reading after an event, without having entered that state, has been reading
before, in the same attempt. -/
theorem dispatched_reading {s t : Sensor} {sent : Sent} {answers : Answers} {calls : List Call}
    (hs : l.machine.sensor? = some s) (ht : (l.dispatched sent answers).machine.sensor? = some t)
    (hread : t.state = .read) (hthread : (l.dispatched sent answers).thread = .running calls)
    (hcalls : ¬ EntersRead calls) :
    s.state = .read ∧ (l.dispatched sent answers).history.attempt = l.history.attempt := by
  obtain ⟨t', ht', hturn⟩ := Machine.dispatch_turn hs answers sent.event
  cases ht'.symm.trans ht
  have hcalls' : (l.machine.dispatch answers sent.event).2 = calls := Thread.running.inj hthread
  rw [← hcalls'] at hcalls
  obtain ⟨rfl, hnone⟩ := hturn.eq_of_read hread hcalls
  refine ⟨hread, ?_⟩
  rw [dispatched_history hs ht', hnone]
  rfl

/-! ## What a step does -/

/-- What each kind of step does, with what it needs. -/
inductive Does (entries : ℕ) (m : Module) (l : SensorLink) : LinkAct → SensorLink → Prop where
  | post {event : Event} (hevent : subscribed m event = true ∨ event = .fsmEnd) :
      Does entries m l (.post event) (l.push ⟨event, 0⟩)
  | start {answers : Answers} (hcreated : l.thread = .created) :
      Does entries m l (.threadStart answers)
        { l with
          machine := (l.machine.init answers).1
          thread := .running (l.machine.init answers).2 }
  | leave {answers : Answers} {sent : Sent} {queue : List Sent} (hthread : l.thread = .running [])
      (hqueue : l.queue = sent :: queue) (hend : sent.event = .fsmEnd) :
      Does entries m l (.threadPop answers) { l with queue, thread := .ended }
  | dispatch {answers : Answers} {sent : Sent} {queue : List Sent}
      (hthread : l.thread = .running []) (hqueue : l.queue = sent :: queue) :
      Does entries m l (.threadPop answers) (SensorLink.dispatched { l with queue } sent answers)
  | call {submits : Bool} {c : Call} {calls : List Call}
      (hthread : l.thread = .running (c :: calls)) :
      Does entries m l (.threadCall submits)
        (call entries { l with thread := .running calls } submits c)
  | expire {attempt : ℕ} (htimer : l.timer = some (some attempt)) :
      Does entries m l .expire { l with timer := some none, handlers := attempt :: l.handlers }
  | handle {n attempt : ℕ} (hattempt : attempt ∈ l.handlers) :
      Does entries m l (.handle n)
        (push { l with handlers := l.handlers.eraseIdx n } ⟨.timeout, attempt⟩)
  | transfer {device : ℕ} {buffer callback submits : Bool} :
      Does entries m l (.transfer device buffer callback submits)
        (l.transfer entries device buffer (if callback then some .other else none) none submits)
  | abort {device : ℕ} {submits : Bool} :
      Does entries m l (.abort device submits)
        { l with driver := (l.driver.abort entries device submits).2 }
  | deliver {n : ℕ} {bytes : List ResponseByte} {entry : RingEntry} {number attempt : ℕ}
      (hentry : l.driver.inflight[n]? = some entry) (hnumber : entry.operation = some number)
      (hattempt : l.reads number = some attempt)
      (hfits : number ∉ l.delivered ∧ 0 < bytes.length ∧ bytes.length ≤ frameSize m) :
      Does entries m l (.deliver n bytes)
        { l with
          delivered := number :: l.delivered
          respFrame :=
            bytes.map (fun byte => some ⟨attempt, byte⟩) ++ l.respFrame.drop bytes.length }
  | complete {n : ℕ} {positive : Bool} {driver : Driver UartCallback}
      (hresults : l.Results n positive)
      (hcomplete : l.driver.complete n positive = some driver) :
      Does entries m l (.complete n positive)
        ({ l with driver }.callBack (driver.ran.drop l.driver.ran.length))

theorem step_does {act : LinkAct} (hstep : Step entries m l act k) : Does entries m l act k := by
  unfold Step at hstep
  cases act with
  | post event =>
    simp only [apply] at hstep
    split_ifs at hstep with hevent
    cases hstep
    exact .post hevent
  | threadStart answers =>
    simp only [apply] at hstep
    split_ifs at hstep with hcreated
    cases hstep
    exact .start hcreated
  | threadPop answers =>
    simp only [apply, threadPop] at hstep
    split_ifs at hstep with hthread
    cases hqueue : l.queue with
    | nil => simp [hqueue] at hstep
    | cons sent queue =>
      simp only [hqueue] at hstep
      split_ifs at hstep with hend
      · cases hstep
        exact .leave hthread hqueue hend
      · cases hstep
        exact .dispatch hthread hqueue
  | threadCall submits =>
    simp only [apply] at hstep
    split at hstep
    · rename_i c calls hthread
      cases hstep
      exact .call hthread
    · cases hstep
  | expire =>
    simp only [apply] at hstep
    split at hstep
    · rename_i attempt htimer
      cases hstep
      exact .expire htimer
    · cases hstep
  | handle n =>
    obtain ⟨attempt, hattempt, rfl⟩ := Option.map_eq_some_iff.mp hstep
    exact .handle (List.mem_of_getElem? hattempt)
  | transfer device buffer callback submits =>
    cases hstep
    exact .transfer
  | abort device submits =>
    cases hstep
    exact .abort
  | deliver n bytes =>
    simp only [apply, deliver] at hstep
    obtain ⟨entry, hentry, hstep⟩ := Option.bind_eq_some_iff.mp hstep
    obtain ⟨number, hnumber, hstep⟩ := Option.bind_eq_some_iff.mp hstep
    obtain ⟨attempt, hattempt, hstep⟩ := Option.bind_eq_some_iff.mp hstep
    split_ifs at hstep with hfits
    cases hstep
    exact .deliver hentry hnumber hattempt hfits
  | complete n positive =>
    simp only [apply, complete] at hstep
    split_ifs at hstep with hresults
    obtain ⟨driver, hcomplete, rfl⟩ := Option.map_eq_some_iff.mp hstep
    exact .complete hresults hcomplete

/-! ## The driver -/

def callAct (attempt : ℕ) (submits : Bool) : Call → Option (DriverAct UartCallback)
  | .uartWrite device callback =>
    some (.write device.index true (callback.map (.post ⟨·, attempt⟩)) submits)
  | .uartRead device callback =>
    some (.read device.index true (callback.map (.post ⟨·, attempt⟩)) submits)
  | .uartAbort device => some (.abort device.index submits)
  | _ => none

/-- The call into the driver, or the completion, in a step. -/
def driverAct (l : SensorLink) : LinkAct → Option (DriverAct UartCallback)
  | .threadCall submits =>
    match l.thread with
    | .running (c :: _) => callAct l.history.attempt submits c
    | _ => none
  | .transfer device buffer callback submits =>
    some (.write device buffer (if callback then some .other else none) submits)
  | .abort device submits => some (.abort device submits)
  | .complete n positive => some (.complete n positive)
  | _ => none

@[simp] theorem callBack_driver (callbacks : List (Callback UartCallback)) :
    (l.callBack callbacks).driver = l.driver :=
  callBack_keeps (P := fun k => k.driver = l.driver) rfl fun k _ sent _ _ hk => by simpa using hk

theorem callBack_completed {n : ℕ} {positive : Bool} {driver : Driver UartCallback}
    (hcomplete : l.driver.complete n positive = some driver) :
    ({ l with driver }.callBack (driver.ran.drop l.driver.ran.length) = { l with driver }) ∨
      ∃ c ∈ driver.ran, positive = true ∧
        (∃ entry, l.driver.inflight[n]? = some entry ∧ entry.operation = some c.completed) ∧
        (∃ ref, (l.driver.slots ref).callback = some (c.owner, c.callback)) ∧
        ∃ sent, c.callback = .post sent ∧
          { l with driver }.callBack (driver.ran.drop l.driver.ran.length) =
            { l with driver }.push sent := by
  obtain ⟨callbacks, hran, hlength, hall⟩ := Driver.complete_ran hcomplete
  rw [hran, List.drop_left]
  cases callbacks with
  | nil => exact .inl rfl
  | cons c rest =>
    cases List.length_eq_zero_iff.mp (Nat.le_zero.mp (Nat.le_of_succ_le_succ hlength))
    obtain ⟨hpositive, hentry, href⟩ := hall c List.mem_cons_self
    cases hc : c.callback with
    | other => exact .inl (by simp [callBack, hc])
    | post sent =>
      refine .inr ⟨c, by simp, hpositive, hentry, hc ▸ href, sent, hc, ?_⟩
      simp [callBack, hc]

/-- In every step the driver makes a step of its own, or none. -/
theorem step_driver {act : LinkAct} (hstep : Step entries m l act k) :
    (l.driverAct act = none ∧ k.driver = l.driver) ∨
      ∃ call, l.driverAct act = some call ∧ Driver.Step entries l.driver call k.driver := by
  cases step_does hstep with
  | post | handle => exact .inl ⟨rfl, push_driver _ _⟩
  | start | leave | dispatch | expire | deliver => exact .inl ⟨rfl, rfl⟩
  | @call submits c calls hthread =>
    have hact : l.driverAct (.threadCall submits) = callAct l.history.attempt submits c := by
      simp only [driverAct, hthread]
    rw [hact]
    cases c with
    | uartWrite | uartRead | uartAbort => exact .inr ⟨_, rfl, _, rfl⟩
    | _ => exact .inl ⟨rfl, rfl⟩
  | transfer | abort => exact .inr ⟨_, rfl, _, rfl⟩
  | complete hresults hcomplete =>
    refine .inr ⟨_, rfl, .successful, ?_⟩
    simp [Driver.apply, hcomplete]

/-- What the driver sees of a run is a run of the driver. -/
theorem run_driver {acts : List LinkAct} (hrun : Run (Step entries m) l acts k) :
    ∃ calls, Run (Driver.Step entries) l.driver calls k.driver := by
  induction hrun with
  | nil => exact ⟨[], .nil⟩
  | snoc _ hstep ih =>
    obtain ⟨calls, hcalls⟩ := ih
    rcases step_driver hstep with ⟨-, hsame⟩ | ⟨call, -, hcall⟩
    · exact ⟨calls, hsame ▸ hcalls⟩
    · exact ⟨calls ++ [call], hcalls.snoc hcall⟩

/-! ## Everything is the sensor's own -/

/-- The machine, the pending calls and the callbacks are the module's own. -/
structure Typed (m : Module) (l : SensorLink) : Prop where
  machine : l.machine.module = m
  created : l.thread = .created → l.machine = .created m
  calls : ∀ calls, l.thread = .running calls → ∀ c ∈ calls, c.Of m
  callbacks : ∀ ref, ∀ c ∈ (l.driver.slots ref).callback, ∀ sent, c.2 = .post sent →
    sent.event.OfUart

theorem init_typed (m : Module) : Typed m (init m) where
  machine := Machine.created_module m
  created _ := rfl
  calls _ h := by cases h
  callbacks _ _ h := by cases h

theorem Typed.push (h : Typed m l) (sent : Sent) : Typed m (l.push sent) := by
  refine ⟨?_, ?_, ?_, ?_⟩
  · simpa using h.machine
  · simpa using h.created
  · simpa using h.calls
  · simpa using h.callbacks

theorem Typed.running (h : Typed m l) {machine : Machine} {calls : List Call}
    (hfits : Machine.Fits m (machine, calls)) (hl : k.machine = machine)
    (hthread : k.thread = .running calls) (hdriver : k.driver = l.driver) : Typed m k where
  machine := hl ▸ hfits.1
  created hcreated := by simp [hthread] at hcreated
  calls calls' hcalls := by
    rw [hthread] at hcalls
    cases hcalls
    exact hfits.2
  callbacks := hdriver ▸ h.callbacks

theorem Typed.transfer (h : Typed m l) {device : ℕ} {buffer submits : Bool}
    {callback : Option UartCallback} {attempt : Option ℕ}
    (hcallback : ∀ sent, .post sent ∈ callback → sent.event.OfUart) :
    Typed m (l.transfer entries device buffer callback attempt submits) := by
  refine ⟨h.machine, h.created, h.calls, fun ref c hc sent hsent => ?_⟩
  rcases Driver.transfer_callback hc with hold | ⟨-, hnew, -⟩
  · exact h.callbacks ref c hold sent hsent
  · exact hcallback sent (hsent ▸ hnew)

theorem Typed.abort (h : Typed m l) (device : ℕ) (submits : Bool) :
    Typed m { l with driver := (l.driver.abort entries device submits).2 } :=
  ⟨h.machine, h.created, h.calls, by simpa using h.callbacks⟩

theorem Typed.call (h : Typed m l) {submits : Bool} {c : Call} (hc : c.Of m) :
    Typed m (call entries l submits c) := by
  have hcallback {callback : Option Event} (hcall : ∀ event ∈ callback, event.OfUart)
      (sent : Sent) (hsent : UartCallback.post sent ∈
        callback.map (UartCallback.post ⟨·, l.history.attempt⟩)) : sent.event.OfUart := by
    obtain ⟨event, hevent, heq⟩ := Option.map_eq_some_iff.mp hsent
    cases heq
    exact hcall event hevent
  cases c with
  | uartWrite device callback =>
    exact h.transfer (hcallback fun event hevent => .inr (hc.2 event hevent))
  | uartRead device callback =>
    exact h.transfer (hcallback fun event hevent => .inl (hc.2 event hevent))
  | uartAbort device => exact h.abort device.index submits
  | timerInit | timerArm | timerDisarm | publish =>
    exact ⟨h.machine, h.created, h.calls, h.callbacks⟩

/-- The callbacks of a completion post events of reads and configuration writes. -/
theorem Typed.called (h : Typed m l) {n : ℕ} {positive : Bool} {driver : Driver UartCallback}
    (hcomplete : l.driver.complete n positive = some driver)
    {c : Callback UartCallback} (hc : c ∈ driver.ran.drop l.driver.ran.length) {sent : Sent}
    (hsent : c.callback = .post sent) : sent.event.OfUart := by
  obtain ⟨callbacks, hran, -, hall⟩ := Driver.complete_ran hcomplete
  rw [hran, List.drop_left] at hc
  obtain ⟨-, -, ref, hcallback⟩ := hall c hc
  exact h.callbacks ref _ hcallback sent hsent

theorem Typed.step (h : Typed m l) {act : LinkAct} (hstep : Step entries m l act k) :
    Typed m k := by
  cases step_does hstep with
  | post => exact h.push _
  | @start answers =>
    have hfits := Machine.init_fits answers l.machine
    rw [h.machine] at hfits
    exact h.running hfits rfl rfl rfl
  | leave =>
    exact ⟨h.machine, fun hcreated => (by cases hcreated), fun _ hcalls => (by cases hcalls),
      h.callbacks⟩
  | @dispatch answers sent =>
    have hfits := Machine.dispatch_fits answers sent.event l.machine
    rw [h.machine] at hfits
    exact h.running hfits rfl rfl rfl
  | @call submits c calls hthread =>
    have hl : Typed m { l with thread := .running calls } :=
      h.running ⟨h.machine, fun c' hc' => h.calls _ hthread c' (List.mem_cons_of_mem c hc')⟩
        rfl rfl rfl
    exact hl.call (h.calls _ hthread c List.mem_cons_self)
  | expire | deliver => exact ⟨h.machine, h.created, h.calls, h.callbacks⟩
  | @handle n =>
    have hl : Typed m { l with handlers := l.handlers.eraseIdx n } :=
      ⟨h.machine, h.created, h.calls, h.callbacks⟩
    exact hl.push _
  | transfer => exact h.transfer fun sent hsent => by split_ifs at hsent <;> simp at hsent
  | @abort device submits => exact h.abort device submits
  | complete hresults hcomplete =>
    refine callBack_keeps (P := Typed m) ⟨h.machine, h.created, h.calls, ?_⟩
      fun k _ sent _ _ hk => hk.push sent
    intro ref c hc
    rw [Driver.complete_callback hcomplete] at hc
    exact h.callbacks ref c hc

/-- The distance sensor is asked, and makes the calls of its first attempt. -/
def firstAttempt : List LinkAct :=
  [.threadStart ⟨true, false⟩, .threadCall true, .post .read, .threadPop ⟨true, false⟩] ++
    List.replicate 3 (.threadCall true)

/-- The command is written, and the read of the attempt completes with these bytes. -/
def answered (bytes : List ResponseByte) : List LinkAct :=
  [.complete 0 true, .deliver 0 bytes, .complete 0 true]

/-- The timer expires and its timeout is taken, with so many calls. -/
def timedOut (calls : ℕ) : List LinkAct :=
  [.expire, .handle 0, .threadPop ⟨true, false⟩] ++ List.replicate calls (.threadCall true)

end SensorLink

end SnipeIt.Ddl
