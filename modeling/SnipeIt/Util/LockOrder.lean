import SnipeIt.ActiveObject.Machines
import SnipeIt.Support.Locking

/-! # Which locks are taken under which

What every function does with the mutexes of the bus, the UART driver, the
event queues, the servo target and the log, in the order of its source. A `maybe`
or a choice stands for a test whose outcome does not matter here, and code that
takes no lock is left out.
-/

namespace SnipeIt.Util
open Support ActiveObject
open LockCode (holding maybe inTurn oneOf)

/-- The mutexes. A condition wait in `util_queue_pop` is on the mutex of its queue. -/
inductive Mutex where
  | bus
  | uart
  | queue (m : Module)
  | servoTarget
  | logTime
  | logWrite
  deriving DecidableEq

/-- Whoever holds the bus or the UART driver may take one of the others, and nothing else. -/
def Mutex.rank : Mutex → ℕ
  | .bus => 0
  | .uart => 0
  | _ => 1

theorem Mutex.rank_lt (l : Mutex) : l.rank < 2 := by
  cases l <;> simp [rank]

namespace Locks

def fillIso8601Time : LockCode Mutex := maybe (holding .logTime .skip)

def logPrivate : LockCode Mutex :=
  inTurn [fillIso8601Time, maybe (holding .logWrite .skip)]

def utilQueuePush (m : Module) : LockCode Mutex := maybe (holding (.queue m) .skip)

def utilQueuePop (m : Module) : LockCode Mutex :=
  maybe (holding (.queue m) (.loop (.wait (.queue m))))

/-- `util_active_object_post`, which is also all that `util_active_object_end` does. -/
def utilActiveObjectPost (m : Module) : LockCode Mutex := maybe (utilQueuePush m)

/-- `app_post` with the modules of the application layer, `ddl_post` with those below. -/
def layerPost (modules : List Module) : LockCode Mutex :=
  oneOf (modules.map fun m => inTurn [logPrivate, utilActiveObjectPost m])

def utilEventBusInit : LockCode Mutex := logPrivate

def utilEventBusSubscribe : LockCode Mutex := maybe (inTurn [logPrivate, holding .bus .skip])

def utilEventBusPublish : LockCode Mutex :=
  maybe (holding .bus (.loop (oneOf [layerPost appModules, layerPost ddlModules])))

def utilEventBusDelete : LockCode Mutex := holding .bus .skip

/-- `hal_uart_write` and `hal_uart_read`. -/
def halUartTransfer : LockCode Mutex := maybe (holding .uart .skip)

def halUartAbort : LockCode Mutex := maybe (holding .uart .skip)

def halUartCleanup : LockCode Mutex := holding .uart .skip

def servoCopyTarget : LockCode Mutex := holding .servoTarget .skip

def servoFsmSetTarget : LockCode Mutex := maybe (holding .servoTarget .skip)

/-! ## States -/

/-- `util_fsm_transition` out of a state and into another, given what these do on the exit and
the entry event. -/
def transition (exit entry : LockCode Mutex) : LockCode Mutex := inTurn [exit, entry]

/-- A state that logs each of the other events that it gets and does nothing else. -/
def state (events : List (LockCode Mutex)) : LockCode Mutex := oneOf (events ++ [logPrivate])

def schedulerStates : LockCode Mutex :=
  let publish := inTurn [logPrivate, utilEventBusPublish, maybe logPrivate]
  oneOf [
    state [inTurn [logPrivate, transition logPrivate logPrivate]],
    state [],
    state [inTurn [logPrivate, transition logPrivate publish]],
    state [publish, inTurn [logPrivate, transition logPrivate logPrivate]]]

def broadcasterStates : LockCode Mutex :=
  oneOf [state [inTurn [logPrivate, transition logPrivate logPrivate]], state []]

/-- The entry of the read state of `distance_fsm.c` and `gps_fsm.c`. -/
def readEntry : LockCode Mutex := inTurn [logPrivate, halUartTransfer, halUartTransfer]

def retryHandler : LockCode Mutex :=
  oneOf [transition logPrivate readEntry, inTurn [logPrivate, transition logPrivate logPrivate]]

/-- The entry of the update state of `distance_fsm.c` and `gps_fsm.c`. -/
def updateEntry : LockCode Mutex :=
  inTurn [logPrivate, oneOf [
    inTurn [logPrivate, transition logPrivate logPrivate], inTurn [logPrivate, retryHandler]]]

/-- The error, idle, read and update states of `distance_fsm.c` and `gps_fsm.c`. -/
def sensorStates : LockCode Mutex :=
  oneOf [
    state [],
    state [inTurn [logPrivate, transition logPrivate readEntry]],
    state [readEntry, inTurn [logPrivate, transition logPrivate updateEntry],
      inTurn [logPrivate, halUartAbort, retryHandler]],
    state [updateEntry]]

def distanceStates : LockCode Mutex :=
  oneOf [state [inTurn [logPrivate, transition logPrivate logPrivate]], sensorStates]

def configSendCurrentStep : LockCode Mutex := inTurn [logPrivate, halUartTransfer]

def gpsStates : LockCode Mutex :=
  oneOf [
    state [
      inTurn [logPrivate, oneOf [
        inTurn [logPrivate, transition logPrivate logPrivate], configSendCurrentStep]],
      inTurn [logPrivate, oneOf [
        configSendCurrentStep, inTurn [logPrivate, transition logPrivate logPrivate]]]],
    sensorStates]

def temperatureHumidityStates : LockCode Mutex :=
  let am2302Read := maybe logPrivate
  let readEntry := inTurn [logPrivate, maybe (inTurn [.loop am2302Read, maybe logPrivate]),
    transition logPrivate logPrivate]
  oneOf [
    state [inTurn [logPrivate, transition logPrivate logPrivate]],
    state [],
    state [inTurn [logPrivate, transition logPrivate readEntry]],
    state [readEntry]]

def servoStates : LockCode Mutex :=
  let entry := inTurn [logPrivate, maybe logPrivate]
  let targetEntry := inTurn [logPrivate, servoCopyTarget, maybe logPrivate]
  oneOf [
    state [inTurn [logPrivate, transition logPrivate (oneOf [entry, logPrivate])]],
    state [],
    state [entry, inTurn [logPrivate, transition logPrivate entry]],
    state [entry, inTurn [logPrivate, transition logPrivate targetEntry]],
    state [targetEntry, .skip, inTurn [logPrivate, transition logPrivate entry]],
    state [targetEntry, inTurn [logPrivate, servoCopyTarget, maybe logPrivate],
      inTurn [logPrivate, transition logPrivate entry]]]

def states : Module → LockCode Mutex
  | .scheduler => schedulerStates
  | .broadcaster => broadcasterStates
  | .distance => distanceStates
  | .servo => servoStates
  | .temperatureHumidity => temperatureHumidityStates
  | .gps => gpsStates

/-! ## Threads -/

def activeEntry (m : Module) : LockCode Mutex :=
  inTurn [states m, .loop (inTurn [utilQueuePop m, states m]), utilQueuePop m]

/-- `timer_expired_handler` with the handler of a module. -/
def timerExpiredHandler (m : Module) : LockCode Mutex := utilActiveObjectPost m

/-- `io_completion_thread`, with the callbacks of `distance_fsm.c` and `gps_fsm.c`. -/
def ioCompletionThread : LockCode Mutex :=
  .loop (maybe (holding .uart
    (oneOf [utilActiveObjectPost .distance, utilActiveObjectPost .gps])))

/-- What the main thread calls, in any order: the functions of the layers while they come up, run
and are brought down. -/
def mainThread : LockCode Mutex :=
  .loop (oneOf ([logPrivate, utilEventBusInit, utilEventBusSubscribe, utilEventBusPublish,
    utilEventBusDelete, halUartCleanup, servoFsmSetTarget] ++
    (appModules ++ ddlModules).map utilActiveObjectPost))

/-- The threads of the program. There can be any number of timer threads. -/
inductive ThreadKind where
  | object (m : Module)
  | timer (m : Module)
  | completion
  | main

def ThreadKind.code : ThreadKind → LockCode Mutex
  | .object m => activeEntry m
  | .timer m => timerExpiredHandler m
  | .completion => ioCompletionThread
  | .main => mainThread

/-- Every thread takes the mutexes in the order of their rank and waits with no other one held. -/
theorem code_inOrder (kind : ThreadKind) : kind.code.InOrder Mutex.rank := by
  cases kind with
  | object m => cases m <;> decide
  | timer m => cases m <;> decide
  | completion => decide
  | main => decide

/-- Any threads of the program, in any interleaving: nobody waits for himself along a chain of
threads or of mutexes, a thread that sleeps in `util_queue_pop` holds no mutex, and wherever a
thread waits, one that holds a mutex can go on. -/
theorem mutexes_never_deadlock {κ : Type*} [DecidableEq κ] {kind : κ → ThreadKind}
    {acts : List (κ × Bool)} {m : LockMachine κ Mutex}
    (h : Run LockMachine.Step (LockMachine.init fun t => (kind t).code) acts m) :
    (∀ t, ¬ Relation.TransGen m.WaitsFor t t) ∧ (∀ l, ¬ Relation.TransGen m.LockWaitsFor l l) ∧
      (∀ t l todo, m.threads t = .asleep l todo → ∀ l', m.owner l' ≠ some t) ∧
      ∀ t u, m.WaitsFor t u →
        ∃ v, Relation.TransGen m.WaitsFor t v ∧ (∃ l, m.owner l = some v) ∧ m.CanGo v := by
  have hm : m.Disciplined Mutex.rank :=
    LockMachine.run_disciplined (fun t => code_inOrder (kind t)) h
  exact ⟨hm.waitsFor_acyclic, hm.lockWaitsFor_acyclic,
    fun t l todo hthread => hm.asleep_owns_nothing hthread,
    fun t u hwaits => hm.chain_ends Mutex.rank_lt hwaits⟩

def twoThreads : Bool → ThreadKind
  | false => .completion
  | true => .timer .distance

/-- The completion thread holds the driver and waits for a queue that a timer thread holds. -/
def callbackWaits : List (Bool × Bool) :=
  [(true, false), (true, false), (true, true), (true, true), (false, true), (false, false),
    (false, true), (false, true), (false, true), (false, true), (false, false), (false, false),
    (false, true)]

theorem mutexes_never_deadlock_callback :
    ∃ m : LockMachine Bool Mutex,
      Run LockMachine.Step (LockMachine.init fun t => (twoThreads t).code) callbackWaits m ∧
      m.owner .uart = some false ∧ m.WaitsFor false true ∧
      ¬ Relation.TransGen m.WaitsFor false false := by
  have hfacts : (exec LockMachine.apply (LockMachine.init fun t => (twoThreads t).code)
      callbackWaits).map (fun m => (m.owner .uart, (m.threads false).wanted,
        m.owner (.queue .distance))) =
      some (some false, some (.queue .distance), some true) := by decide
  obtain ⟨m, hexec, hm⟩ := Option.map_eq_some_iff.mp hfacts
  simp only [Prod.mk.injEq] at hm
  have hrun : Run LockMachine.Step (LockMachine.init fun t => (twoThreads t).code)
      callbackWaits m := Run.of_exec hexec
  exact ⟨m, hrun, hm.1, ⟨_, hm.2.1, hm.2.2⟩, (mutexes_never_deadlock hrun).1 false⟩

end Locks

end SnipeIt.Util
