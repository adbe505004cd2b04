import SnipeIt.ActiveObject.Machines
import SnipeIt.Support.Run

/-! # Threads, timers and teardown

One thread for each active object, one for each running timer handler, the
UART completion thread, and the main thread that brings everything down. Every
call a state handler makes is a step of its own. Every `util_queue_push` is
recorded, with whether the queue had been deleted.
-/

namespace SnipeIt.ActiveObject
open Hal Support

structure Queue where
  events : List Event
  deleted : Bool

namespace Queue

/-- The capacity of every event queue, such as `eSCHEDULER_QUEUE_CAPACITY`. -/
def capacity : ℕ := 4

def HasRoom (q : Queue) : Prop := q.events.length < capacity

instance (q : Queue) : Decidable q.HasRoom := inferInstanceAs (Decidable (_ < _))

/-- `util_queue_push`, which refuses the event when the queue is full. -/
def push (q : Queue) (event : Event) : Queue :=
  if q.HasRoom then { q with events := q.events ++ [event] } else q

@[simp] theorem push_deleted (q : Queue) (event : Event) : (q.push event).deleted = q.deleted := by
  unfold push
  split_ifs <;> rfl

end Queue

/-- A thread before its first dispatch, with the calls it has still to make, after it has left its
loop, and after it was joined. -/
inductive Thread where
  | created
  | running (calls : List Call)
  | ended
  | joined
  deriving DecidableEq

/-- A timer posts an event to its own module. -/
structure Timer where
  handler : Event
  armed : Option TimerType

inductive DeleteStep where
  | queueDelete (m : Module)
  | timerDestroy (m : Module)
  deriving DecidableEq

/-- The delete functions of the modules: `util_active_object_delete`, then `osal_timer_destroy`
where there is a timer. -/
def moduleDelete : Module → List DeleteStep
  | .scheduler => [.queueDelete .scheduler, .timerDestroy .scheduler]
  | .broadcaster => [.queueDelete .broadcaster]
  | .distance => [.queueDelete .distance, .timerDestroy .distance]
  | .servo => [.queueDelete .servo, .timerDestroy .servo]
  | .temperatureHumidity => [.queueDelete .temperatureHumidity]
  | .gps => [.queueDelete .gps, .timerDestroy .gps]

/-- Every module, in the order of `app_end`, `app_join` and `app_delete`. -/
def modules : List Module := appModules ++ ddlModules

inductive Phase where
  | up
  | ending (rest : List Module)
  | joining (rest : List Module)
  | deleting (rest : List DeleteStep)
  | busDeleting
  | uartStopping
  | uartJoining
  | down

/-- Who brings the system down. -/
inductive Caller where
  | ddlBridgeStop | main

structure Push where
  target : Module
  event : Event
  deleted : Bool

structure System where
  phase : Phase
  machine : Module → Machine
  thread : Module → Thread
  queue : Module → Queue
  timer : Module → Option Timer
  /-- The timer handlers that run, each in a thread of its own. -/
  handlers : List (Module × Event)
  uart : Uart (Module × Event)
  /-- Whether the subscriptions are active. -/
  bus : Bool
  pushes : List Push

/-- A step of some thread, with what the environment answers. -/
inductive Act where
  | publish (ao : Module) (event : Event)
  | stop (caller : Caller)
  | teardown
  | uartStop (data : Option SlotRef) (answer : Submission)
  | threadStart (m : Module) (answers : Answers)
  | threadPop (m : Module) (answers : Answers)
  | threadCall (m : Module) (data : Option SlotRef) (answer : Submission)
  | expire (m : Module)
  | handle (handler : Module × Event)
  | uartCheck
  | uartComplete (n : ℕ) (positive : Bool)

namespace System

def init : System where
  phase := .up
  machine := .created
  thread := fun _ => .created
  queue := fun _ => ⟨[], false⟩
  timer := fun _ => none
  handlers := []
  uart := .init
  bus := true
  pushes := []

def post (s : System) (m : Module) (event : Event) : System :=
  { s with
    queue := Function.update s.queue m ((s.queue m).push event)
    pushes := s.pushes ++ [⟨m, event, (s.queue m).deleted⟩] }

def publish (s : System) (ao : Module) (event : Event) : System :=
  if s.bus && subscribed ao event then s.post ao event else s

def setTimer (s : System) (m : Module) (timer : Option Timer) : System :=
  { s with timer := Function.update s.timer m timer }

def call (s : System) (m : Module) (data : Option SlotRef) (answer : Submission) : Call → System
  | .timerInit handler => s.setTimer m (some ⟨handler, none⟩)
  | .timerArm type => s.setTimer m ((s.timer m).map ({ · with armed := some type }))
  | .timerDisarm => s.setTimer m ((s.timer m).map ({ · with armed := none }))
  | .uartWrite device callback =>
    { s with uart := s.uart.transfer device (callback.map (m, ·)) answer }
  | .uartRead device callback =>
    { s with uart := s.uart.transfer device (callback.map (m, ·)) answer }
  | .uartAbort _ => { s with uart := s.uart.abort data answer }
  | .publish ao event => s.publish ao event

def setThread (s : System) (m : Module) (thread : Thread) : System :=
  { s with thread := Function.update s.thread m thread }

def dispatched (s : System) (m : Module) (result : Machine × List Call) : System :=
  { s with
    machine := Function.update s.machine m result.1
    thread := Function.update s.thread m (.running result.2) }

def threadStart (s : System) (m : Module) (answers : Answers) : Option System :=
  if s.thread m = .created then some (s.dispatched m ((s.machine m).init answers)) else none

/-- One turn of the loop of `active_entry`, which waits while the queue is empty. -/
def threadPop (s : System) (m : Module) (answers : Answers) : Option System :=
  if s.thread m = .running [] then
    match (s.queue m).events with
    | [] => none
    | event :: events =>
      let s' := { s with queue := Function.update s.queue m { s.queue m with events } }
      if event = .fsmEnd then some (s'.setThread m .ended)
      else some (s'.dispatched m ((s.machine m).dispatch answers event))
  else none

def threadCall (s : System) (m : Module) (data : Option SlotRef) (answer : Submission) :
    Option System :=
  match s.thread m with
  | .running (c :: calls) => some ((s.setThread m (.running calls)).call m data answer c)
  | _ => none

/-- A timer expires: its handler starts in a new thread, and a one-shot timer is spent. -/
def expire (s : System) (m : Module) : Option System :=
  match s.timer m with
  | some ⟨handler, some .once⟩ =>
    some { s.setTimer m (some ⟨handler, none⟩) with handlers := (m, handler) :: s.handlers }
  | some ⟨handler, some .repeated⟩ => some { s with handlers := (m, handler) :: s.handlers }
  | _ => none

def handle (s : System) (handler : Module × Event) : Option System :=
  if handler ∈ s.handlers then
    some ({ s with handlers := s.handlers.erase handler }.post handler.1 handler.2)
  else none

def uartComplete (s : System) (n : ℕ) (positive : Bool) : Option System :=
  match s.uart.complete n positive with
  | none => none
  | some (uart, none) => some { s with uart }
  | some (uart, some (m, event)) => some ({ s with uart }.post m event)

/-- `ddl_bridge_stop` asks the modules to end. `main` goes on to join them. -/
def stopPhase : Caller → Phase
  | .ddlBridgeStop => .ending modules
  | .main => .joining modules

def deleteStep (s : System) : DeleteStep → System
  | .queueDelete m =>
    { s with queue := Function.update s.queue m { s.queue m with deleted := true } }
  | .timerDestroy m => s.setTimer m none

/-- The next statement of the teardown. `app_end` gives up at the first queue that is full, and a
join waits for the thread. -/
def teardown (s : System) : Option System :=
  match s.phase with
  | .ending [] => some { s with phase := .joining modules }
  | .ending (m :: rest) =>
    some { s.post m .fsmEnd with
      phase := if (s.queue m).HasRoom then .ending rest else .joining modules }
  | .joining [] => some { s with phase := .deleting (modules.flatMap moduleDelete) }
  | .joining (m :: rest) =>
    if s.thread m = .ended then some { s.setThread m .joined with phase := .joining rest }
    else none
  | .deleting [] => some { s with phase := .busDeleting }
  | .deleting (d :: rest) => some { s.deleteStep d with phase := .deleting rest }
  | .busDeleting => some { s with bus := false, phase := .uartStopping }
  | .uartJoining => if s.uart.thread = .exited then some { s with phase := .down } else none
  | _ => none

def apply (s : System) : Act → Option System
  | .publish ao event =>
    match s.phase with
    | .up => some (s.publish ao event)
    | _ => none
  | .stop caller =>
    match s.phase with
    | .up => some { s with phase := stopPhase caller }
    | _ => none
  | .teardown => s.teardown
  | .uartStop data answer =>
    match s.phase with
    | .uartStopping => some { s with uart := s.uart.stop data answer, phase := .uartJoining }
    | _ => none
  | .threadStart m answers => s.threadStart m answers
  | .threadPop m answers => s.threadPop m answers
  | .threadCall m data answer => s.threadCall m data answer
  | .expire m => s.expire m
  | .handle handler => s.handle handler
  | .uartCheck => s.uart.check.map fun uart => { s with uart }
  | .uartComplete n positive => s.uartComplete n positive

def Step (s : System) (act : Act) (t : System) : Prop := s.apply act = some t

/-- Several steps, as far as they are possible and `good`. -/
def exec (good : System → Act → Bool) (s : System) : List Act → Option System
  | [] => some s
  | act :: acts => if good s act then (s.apply act).bind (·.exec good acts) else none

theorem run_of_exec {good : System → Act → Bool} {s t : System} {acts : List Act}
    (h : s.exec good acts = some t) : Run (Guarded (good · ·) Step) s acts t := by
  induction acts generalizing s with
  | nil =>
    cases h
    exact .nil
  | cons act acts ih =>
    unfold exec at h
    split_ifs at h with hgood
    obtain ⟨u, hu, hrest⟩ := Option.bind_eq_some_iff.mp h
    exact .cons ⟨hgood, hu⟩ (ih hrest)

end System

end SnipeIt.ActiveObject
