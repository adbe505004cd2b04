import SnipeIt.ActiveObject.System
import SnipeIt.Status

/-! # Bringing the system up

`ddl_bridge_start` goes through the drivers, the event bus and the active
objects. Each of them takes resources one by one, and any of these steps can
fail. A function that fails returns without a look at what its siblings took.
-/

namespace SnipeIt.Bridge
open ActiveObject Hal

/-- What is taken and has to be given back. -/
inductive Resource where
  | bridge
  | gpioChip
  | gpioLine (line : Fin 2)
  | uartFd (device : Device)
  | uartRing
  | uartThread
  | i2cFd
  | busMutex
  | queueBuffer (m : Module)
  | queueMutex (m : Module)
  | queueCond (m : Module)
  | thread (m : Module)
  | timer (m : Module)
  | servoTargetMutex
  deriving DecidableEq

/-- The steps that can fail. -/
inductive Prim where
  | calloc
  | chipOpen
  | getLine (line : Fin 2)
  | lineRequest (line : Fin 2)
  | cfsetspeed (device : Device)
  | uartOpen (device : Device)
  | isatty (device : Device)
  | tcsetattr (device : Device)
  | ringInit
  | uartThreadCreate
  | i2cOpen
  | i2cFuncs
  | i2cSupport
  | busMutexAlloc
  | busMutexInit
  | bufferAlloc (m : Module)
  | mutexAlloc (m : Module)
  | mutexInit (m : Module)
  | condAlloc (m : Module)
  | condInit (m : Module)
  | threadAlloc (m : Module)
  | threadCreate (m : Module)
  deriving DecidableEq

/-- What the start finds: which steps fail, how many subscriptions the event bus has room for, and
how far the thread of each active object comes with its own resources before the start is over. -/
structure Env where
  fails : Prim → Bool
  maxSubscriptions : ℕ
  threadGoes : Module → ℕ

/-- What was taken and what was given back, the queues that have a pointer to a buffer, the active
subscriptions, and the slots of the scheduler that are taken. -/
structure World where
  acquired : List Resource
  released : List Resource
  buffer : Module → Bool
  subscriptions : List (Module × Event)
  schedulerSlots : List ℕ

namespace World

def init : World := ⟨[], [], fun _ => false, [], []⟩

def acquire (w : World) (r : Resource) : World := { w with acquired := w.acquired ++ [r] }

def release (w : World) (r : Resource) : World := { w with released := w.released ++ [r] }

def releaseAll (w : World) (rs : List Resource) : World := rs.foldl release w

/-- Everything that was taken was given back once, no subscription is active, and no queue has a
pointer to a buffer that was given back. -/
structure Clean (w : World) : Prop where
  once : w.acquired.Nodup
  released : w.released.Perm w.acquired
  subscriptions : w.subscriptions = []
  buffers : ∀ m, w.buffer m = true → .queueBuffer m ∉ w.released

end World

/-- `if(status) { return status; }` between two steps. -/
def andThen (r : Status × World) (next : World → Status × World) : Status × World :=
  if r.1 = .successful then next r.2 else r

/-- A loop that returns at the first failure. -/
def forEach {α : Type*} (step : α → World → Status × World) : List α → World → Status × World
  | [], w => (.successful, w)
  | a :: as, w => andThen (step a w) (forEach step as)

section

variable (env : Env)

/-- `osal_mutex_init`, `osal_cond_init` and `osal_thread_create` allocate a handle, and free it when
the object itself fails. -/
def osalCreate (alloc create : Prim) (r : Resource) (w : World) : Status × World :=
  if env.fails alloc then (.systemError, w)
  else if env.fails create then (.systemError, (w.acquire r).release r)
  else (.successful, w.acquire r)

def osalMutexInit (m : Module) : World → Status × World :=
  osalCreate env (.mutexAlloc m) (.mutexInit m) (.queueMutex m)

def osalCondInit (m : Module) : World → Status × World :=
  osalCreate env (.condAlloc m) (.condInit m) (.queueCond m)

/-- What the thread of an active object takes when it initialises its machine. -/
def threadResources : Module → List Resource
  | .scheduler => [.timer .scheduler]
  | .broadcaster => []
  | .distance => [.timer .distance]
  | .servo => [.servoTargetMutex, .timer .servo]
  | .temperatureHumidity => []
  | .gps => [.timer .gps]

/-- `osal_thread_create` of an active object, whose thread then goes on by itself. -/
def osalThreadCreate (m : Module) (w : World) : Status × World :=
  andThen (osalCreate env (.threadAlloc m) (.threadCreate m) (.thread m) w) fun w =>
    (.successful, ((threadResources m).take (env.threadGoes m)).foldl World.acquire w)

def utilQueueInit (m : Module) (w : World) : Status × World :=
  if env.fails (.bufferAlloc m) then
    (.systemError, { w with buffer := Function.update w.buffer m false })
  else
    let w := { w.acquire (.queueBuffer m) with buffer := Function.update w.buffer m true }
    let mutex := osalMutexInit env m w
    if mutex.1 ≠ .successful then (.systemError, mutex.2.release (.queueBuffer m))
    else
      let cond := osalCondInit env m mutex.2
      if cond.1 ≠ .successful then (.systemError, cond.2.release (.queueBuffer m))
      else (.successful, cond.2)

def queueResources (m : Module) : List Resource := [.queueMutex m, .queueCond m, .queueBuffer m]

def utilQueueDelete (m : Module) (w : World) : World := w.releaseAll (queueResources m)

def utilActiveObjectInit (m : Module) (w : World) : Status × World :=
  let queue := utilQueueInit env m w
  if queue.1 ≠ .successful then (.systemError, queue.2)
  else
    let thread := osalThreadCreate env m queue.2
    if thread.1 ≠ .successful then (.systemError, utilQueueDelete m thread.2)
    else (.successful, thread.2)

def halGpioInit (w : World) : Status × World :=
  if env.fails .chipOpen then (.deviceError, w)
  else
    forEach (fun line w =>
      if env.fails (.getLine line) then (.deviceError, w)
      else if env.fails (.lineRequest line) then (.deviceError, w)
      else (.successful, w.acquire (.gpioLine line))) [0, 1] (w.acquire .gpioChip)

def halUartInit (w : World) : Status × World :=
  andThen
    (forEach (fun device w =>
      if env.fails (.cfsetspeed device) then (.deviceError, w)
      else if env.fails (.uartOpen device) then (.deviceError, w)
      else
        let w := w.acquire (.uartFd device)
        if env.fails (.isatty device) then (.deviceError, w.release (.uartFd device))
        else if env.fails (.tcsetattr device) then (.deviceError, w)
        else (.successful, w)) [.uart0, .uart1, .uart2] w)
    fun w =>
      if env.fails .ringInit then (.systemError, w)
      else
        let w := w.acquire .uartRing
        if env.fails .uartThreadCreate then (.systemError, w.release .uartRing)
        else (.successful, w.acquire .uartThread)

def halI2cInit (w : World) : Status × World :=
  if env.fails .i2cOpen then (.deviceError, w)
  else
    let w := w.acquire .i2cFd
    if env.fails .i2cFuncs then (.deviceError, w)
    else if env.fails .i2cSupport then (.deviceError, w)
    else (.successful, w)

def halInit (w : World) : Status × World :=
  andThen (halGpioInit env w) fun w => andThen (halUartInit env w) (halI2cInit env)

/-- `hal_gpio_cleanup`, `hal_uart_cleanup` and `hal_i2c_cleanup`. -/
def halResources : List Resource :=
  [.gpioLine 0, .gpioLine 1, .gpioChip, .uartThread, .uartRing, .uartFd .uart0, .uartFd .uart1,
    .uartFd .uart2, .i2cFd]

def halCleanup (w : World) : World := w.releaseAll halResources

def utilEventBusInit (w : World) : Status × World :=
  osalCreate env .busMutexAlloc .busMutexInit .busMutex { w with subscriptions := [] }

def utilEventBusSubscribe (m : Module) (event : Event) (w : World) : Status × World :=
  if env.maxSubscriptions ≤ w.subscriptions.length then (.actionFailed, w)
  else (.successful, { w with subscriptions := w.subscriptions ++ [(m, event)] })

/-- `util_event_bus_publish`, which succeeds when a subscription matches. -/
def utilEventBusPublish (m : Module) (event : Event) (w : World) : Status × World :=
  if ∃ s ∈ w.subscriptions, s.1 = m ∧ s.2 = event then (.successful, w) else (.actionFailed, w)

def utilEventBusDelete (w : World) : World := { w with subscriptions := [] }.release .busMutex

/-- The subscribe events of `ddl_modules` and `app_modules`. -/
def subscribeEvents : Module → List Event
  | .scheduler => [.start]
  | .broadcaster => [.update]
  | .distance => [.read]
  | .servo => [.scan, .directions, .noiseDetected, .lock]
  | .temperatureHumidity => [.read]
  | .gps => [.read]

/-- The initialisation of a module, after which the scheduler has no subscribers. -/
def moduleInit (m : Module) (w : World) : Status × World :=
  utilActiveObjectInit env m (if m = .scheduler then { w with schedulerSlots := [] } else w)

def moduleUp (m : Module) (w : World) : Status × World :=
  andThen (moduleInit env m w) (forEach (utilEventBusSubscribe env m) (subscribeEvents m))

def ddlInit : World → Status × World := forEach (moduleUp env) ddlModules

def appSchedulerSubscribe (slot : ℕ) (w : World) : Status × World :=
  if Scheduler.subscribersMax ≤ slot then (.invalidValue, w)
  else if slot ∈ w.schedulerSlots then (.actionFailed, w)
  else (.successful, { w with schedulerSlots := w.schedulerSlots ++ [slot] })

/-- `app_init`. The frames of the broadcaster are not `NULL`. -/
def appInit (w : World) : Status × World :=
  andThen (ddlInit env w) fun w =>
    andThen (forEach (moduleUp env) appModules w) (forEach appSchedulerSubscribe [0, 1, 2, 3, 4])

def appDown (w : World) : World :=
  let w := w.releaseAll (modules.map .thread)
  modules.foldl (fun w m => (utilQueueDelete m w).releaseAll
    ((threadResources m).filter (· ∈ w.acquired))) w

structure DdlBridge where
  halUp : Bool
  busUp : Bool
  appUp : Bool
  schedulerStarted : Bool

def ddlBridgeStop (b : DdlBridge) (w : World) : World :=
  let w := if b.appUp then appDown w else w
  let w := if b.busUp then utilEventBusDelete w else w
  let w := if b.halUp then halCleanup w else w
  w.release .bridge

/-- `ddl_bridge_start`. The log goes to the standard output, which needs nothing. -/
def ddlBridgeStart (w : World) : Option DdlBridge × World :=
  if env.fails .calloc then (none, w)
  else
    let hal := halInit env (w.acquire .bridge)
    if hal.1 ≠ .successful then (none, hal.2.release .bridge)
    else
      let bus := utilEventBusInit env hal.2
      if bus.1 ≠ .successful then (none, ddlBridgeStop ⟨true, false, false, false⟩ bus.2)
      else
        let app := appInit env bus.2
        if app.1 ≠ .successful then (none, ddlBridgeStop ⟨true, true, false, false⟩ app.2)
        else
          let publish := utilEventBusPublish .scheduler .start app.2
          if publish.1 ≠ .successful then (none, ddlBridgeStop ⟨true, true, true, false⟩ publish.2)
          else (some ⟨true, true, true, true⟩, publish.2)

/-- Some step fails, or the event bus has too little room. -/
def Env.Fails : Prop :=
  (∃ p, env.fails p = true) ∨ env.maxSubscriptions < (modules.flatMap subscribeEvents).length

/-- A start that fails somewhere returns `NULL` and leaves nothing behind. -/
def AllOrNothing : Prop :=
  env.Fails → (ddlBridgeStart env .init).1 = none ∧ (ddlBridgeStart env .init).2.Clean

/-- The steps of the drivers, but for the opening of the GPIO chip. -/
def driverPrims : List Prim :=
  [.getLine 0, .lineRequest 0, .getLine 1, .lineRequest 1] ++
    [Device.uart0, .uart1, .uart2].flatMap
      (fun device => [.cfsetspeed device, .uartOpen device, .isatty device, .tcsetattr device]) ++
    [.ringInit, .uartThreadCreate, .i2cOpen, .i2cFuncs, .i2cSupport]

/-- Nothing fails, or the first step that fails is one of these: the allocation of the bridge, the
opening of the GPIO chip, the mutex of the event bus, or the buffer of the first queue. -/
def Env.Fits : Prop :=
  ¬ env.Fails ∨ env.fails .calloc = true ∨ env.fails .chipOpen = true ∨
    (∀ p ∈ driverPrims, env.fails p = false) ∧
      (env.fails .busMutexAlloc = true ∨ env.fails .busMutexInit = true ∨
        env.fails (.bufferAlloc .distance) = true)

end

theorem andThen_successful {result : Status × World} {next : World → Status × World} :
    (andThen result next).1 = .successful ↔
      result.1 = .successful ∧ (next result.2).1 = .successful := by
  unfold andThen
  split_ifs with h
  · exact (and_iff_right h).symm
  · exact ⟨fun hup => absurd hup h, fun hup => absurd hup.1 h⟩

theorem forEach_successful {α : Type*} {step : α → World → Status × World} {as : List α}
    {w : World} (hup : (forEach step as w).1 = .successful) :
    ∀ a ∈ as, ∃ v, (step a v).1 = .successful := by
  induction as generalizing w with
  | nil => simp
  | cons a as ih =>
    obtain ⟨hfirst, hrest⟩ := andThen_successful.mp hup
    exact List.forall_mem_cons.mpr ⟨⟨w, hfirst⟩, ih hrest⟩

/-- A loop that is over has collected what each of its steps adds. -/
theorem forEach_collects {α β : Type*} {step : α → World → Status × World} {out : World → List β}
    {added : α → List β}
    (hstep : ∀ a w, (step a w).1 = .successful → out (step a w).2 = out w ++ added a)
    {as : List α} {w : World} (hup : (forEach step as w).1 = .successful) :
    out (forEach step as w).2 = out w ++ as.flatMap added := by
  induction as generalizing w with
  | nil => simp [forEach]
  | cons a as ih =>
    obtain ⟨hfirst, hrest⟩ := andThen_successful.mp hup
    calc out (forEach step (a :: as) w).2
      _ = out (forEach step as (step a w).2).2 := by rw [forEach, andThen, if_pos hfirst]
      _ = out (step a w).2 ++ as.flatMap added := ih hrest
      _ = out w ++ (a :: as).flatMap added := by
        rw [hstep a w hfirst, List.append_assoc, List.flatMap_cons]

/-! ## What a start keeps -/

variable {env : Env} {w : World} {r : Resource}

/-- What no step of a start undoes, other than by giving `kept` back. -/
structure Stable (kept : Resource) (P : World → Prop) : Prop where
  acquire : ∀ w r, P w → P (w.acquire r)
  release : ∀ w r, r ≠ kept → P w → P (w.release r)
  buffer : ∀ w buffer, P w → P { w with buffer }
  subscribe : ∀ w s, P w → P { w with subscriptions := w.subscriptions ++ [s] }
  slots : ∀ w schedulerSlots, P w → P { w with schedulerSlots }

/-- A resource that was taken and not given back. -/
def World.Holds (w : World) (r : Resource) : Prop := r ∈ w.acquired ∧ r ∉ w.released

theorem World.Clean.not_holds (h : w.Clean) : ¬ w.Holds r := fun hholds =>
  hholds.2 (h.released.mem_iff.mpr hholds.1)

theorem notReleased_stable (r : Resource) : Stable r (fun w => r ∉ w.released) where
  acquire _ _ h := h
  release w r' hne h hmem := by
    rcases List.mem_append.mp hmem with hold | hnew
    · exact h hold
    · exact hne (List.mem_singleton.mp hnew).symm
  buffer _ _ h := h
  subscribe _ _ h := h
  slots _ _ h := h

theorem holds_stable (r : Resource) : Stable r (World.Holds · r) where
  acquire _ _ h := ⟨List.mem_append_left _ h.1, h.2⟩
  release w r' hne h := ⟨h.1, (notReleased_stable r).release w r' hne h.2⟩
  buffer _ _ h := h
  subscribe _ _ h := h
  slots _ _ h := h

variable {kept : Resource} {P : World → Prop}

theorem Stable.releaseAll (hP : Stable kept P) {rs : List Resource} (hrs : kept ∉ rs) (h : P w) :
    P (w.releaseAll rs) := by
  induction rs generalizing w with
  | nil => exact h
  | cons r rs ih =>
    rw [List.mem_cons, not_or] at hrs
    exact ih hrs.2 (hP.release w r (Ne.symm hrs.1) h)

theorem Stable.acquireAll (hP : Stable kept P) (rs : List Resource) (h : P w) :
    P (rs.foldl World.acquire w) := by
  induction rs generalizing w with
  | nil => exact h
  | cons r rs ih => exact ih (hP.acquire w r h)

theorem Stable.andThen {result : Status × World} {next : World → Status × World}
    (h : P result.2) (hnext : ∀ w, P w → P (next w).2) : P (andThen result next).2 := by
  unfold Bridge.andThen
  split_ifs
  · exact hnext _ h
  · exact h

theorem Stable.forEach {α : Type*} {step : α → World → Status × World} {as : List α}
    (hstep : ∀ a ∈ as, ∀ w, P w → P (step a w).2) (h : P w) : P (forEach step as w).2 := by
  induction as generalizing w with
  | nil => exact h
  | cons a as ih =>
    exact Stable.andThen (hstep a List.mem_cons_self w h) fun v hv =>
      ih (fun b hb => hstep b (List.mem_cons_of_mem a hb)) hv

theorem Stable.osalCreate (hP : Stable kept P) (env : Env) (alloc create : Prim) (hr : r ≠ kept)
    (h : P w) : P (osalCreate env alloc create r w).2 := by
  unfold Bridge.osalCreate
  split_ifs
  · exact h
  · exact hP.release _ r hr (hP.acquire w r h)
  · exact hP.acquire w r h

/-- What the initialisation of an active object can give back. -/
def ownResources (m : Module) : List Resource := .thread m :: queueResources m

theorem Stable.utilQueueInit (hP : Stable kept P) (env : Env) {m : Module}
    (hkept : kept ∉ queueResources m) (h : P w) : P (utilQueueInit env m w).2 := by
  simp only [queueResources, List.mem_cons, List.not_mem_nil, or_false, not_or] at hkept
  obtain ⟨hmutex, hcond, hbuffer⟩ := hkept
  unfold Bridge.utilQueueInit
  have hw := hP.buffer _ (Function.update w.buffer m true) (hP.acquire w (.queueBuffer m) h)
  have hlocked := hP.osalCreate env (.mutexAlloc m) (.mutexInit m) (Ne.symm hmutex) hw
  have hsignalled := hP.osalCreate env (.condAlloc m) (.condInit m) (Ne.symm hcond) hlocked
  dsimp only
  split_ifs
  · exact hP.buffer w _ h
  · exact hP.release _ _ (Ne.symm hbuffer) hlocked
  · exact hP.release _ _ (Ne.symm hbuffer) hsignalled
  · exact hsignalled

theorem Stable.osalThreadCreate (hP : Stable kept P) (env : Env) {m : Module}
    (hkept : kept ≠ .thread m) (h : P w) : P (osalThreadCreate env m w).2 :=
  Stable.andThen (hP.osalCreate env (.threadAlloc m) (.threadCreate m) (Ne.symm hkept) h)
    fun _ hv => hP.acquireAll _ hv

theorem Stable.utilActiveObjectInit (hP : Stable kept P) {m : Module}
    (hkept : kept ∉ ownResources m) (h : P w) : P (utilActiveObjectInit env m w).2 := by
  rw [ownResources, List.mem_cons, not_or] at hkept
  have hqueue := hP.utilQueueInit env hkept.2 h
  have hthread := hP.osalThreadCreate env hkept.1 hqueue
  unfold Bridge.utilActiveObjectInit
  dsimp only
  split_ifs
  · exact hqueue
  · exact hP.releaseAll hkept.2 hthread
  · exact hthread

theorem Stable.utilEventBusSubscribe (hP : Stable kept P) (env : Env) (m : Module) (event : Event)
    (h : P w) : P (utilEventBusSubscribe env m event w).2 := by
  unfold Bridge.utilEventBusSubscribe
  split_ifs
  · exact h
  · exact hP.subscribe w _ h

theorem Stable.moduleUp (hP : Stable kept P) {m : Module} (hkept : kept ∉ ownResources m)
    (h : P w) : P (moduleUp env m w).2 := by
  refine Stable.andThen (hP.utilActiveObjectInit hkept ?_) fun v hv =>
    Stable.forEach (fun event _ u hu => hP.utilEventBusSubscribe env m event hu) hv
  split_ifs
  · exact hP.slots w [] h
  · exact h

theorem Stable.appSchedulerSubscribe (hP : Stable kept P) (slot : ℕ) (h : P w) :
    P (appSchedulerSubscribe slot w).2 := by
  unfold Bridge.appSchedulerSubscribe
  split_ifs
  · exact h
  · exact h
  · exact hP.slots w _ h

/-! ## Drivers -/

/-- Once the GPIO chip is open, nothing in the initialisation of the drivers closes it. -/
theorem halInit_holds (hchip : env.fails .chipOpen = false) (hfree : .gpioChip ∉ w.released) :
    (halInit env w).2.Holds .gpioChip := by
  have hP := holds_stable .gpioChip
  have hopen : (w.acquire .gpioChip).Holds .gpioChip :=
    ⟨List.mem_append_right _ (List.mem_singleton_self _), hfree⟩
  refine Stable.andThen (P := (World.Holds · .gpioChip)) ?_ fun u hu =>
    Stable.andThen (P := (World.Holds · .gpioChip)) ?_ fun v hv => ?_
  · unfold halGpioInit
    rw [if_neg (by simp [hchip])]
    refine Stable.forEach (P := (World.Holds · .gpioChip)) (fun line _ v hv => ?_) hopen
    split_ifs
    · exact hv
    · exact hv
    · exact hP.acquire v _ hv
  · refine Stable.andThen (P := (World.Holds · .gpioChip))
      (Stable.forEach (P := (World.Holds · .gpioChip)) (fun device _ v hv => ?_) hu) fun v hv => ?_
    · dsimp only
      split_ifs
      · exact hv
      · exact hv
      · exact hP.release _ _ (by simp) (hP.acquire v _ hv)
      · exact hP.acquire v _ hv
      · exact hP.acquire v _ hv
    · dsimp only
      split_ifs
      · exact hv
      · exact hP.release _ _ (by simp) (hP.acquire v _ hv)
      · exact hP.acquire _ _ (hP.acquire v _ hv)
  · unfold halI2cInit
    dsimp only
    split_ifs
    · exact hv
    · exact hP.acquire v _ hv
    · exact hP.acquire v _ hv
    · exact hP.acquire v _ hv

def driversTaken : List Resource :=
  [.gpioChip, .gpioLine 0, .gpioLine 1, .uartFd .uart0, .uartFd .uart1, .uartFd .uart2, .uartRing,
    .uartThread, .i2cFd]

theorem halInit_up (hchip : env.fails .chipOpen = false)
    (hprims : ∀ p ∈ driverPrims, env.fails p = false) (w : World) :
    halInit env w = (.successful, { w with acquired := w.acquired ++ driversTaken }) := by
  simp only [driverPrims, List.flatMap_cons, List.flatMap_nil, List.cons_append, List.nil_append,
    List.append_nil, List.forall_mem_cons] at hprims
  simp [halInit, halGpioInit, halUartInit, halI2cInit, forEach, andThen, World.acquire,
    driversTaken, hchip, hprims]

theorem halInit_driverPrims (hup : (halInit env w).1 = .successful) :
    ∀ p ∈ driverPrims, env.fails p = false := by
  obtain ⟨hgpio, hrest⟩ := andThen_successful.mp hup
  obtain ⟨huart, hi2c⟩ := andThen_successful.mp hrest
  obtain ⟨hdevices, hthread⟩ := andThen_successful.mp huart
  have hline (line : Fin 2) :
      env.fails (.getLine line) = false ∧ env.fails (.lineRequest line) = false := by
    unfold halGpioInit at hgpio
    split_ifs at hgpio
    obtain ⟨v, hv⟩ := forEach_successful hgpio line (by decide +revert)
    split_ifs at hv with hget hrequest
    exact ⟨eq_false_of_ne_true hget, eq_false_of_ne_true hrequest⟩
  have hdevice (device : Device) :
      env.fails (.cfsetspeed device) = false ∧ env.fails (.uartOpen device) = false ∧
        env.fails (.isatty device) = false ∧ env.fails (.tcsetattr device) = false := by
    obtain ⟨v, hv⟩ := forEach_successful hdevices device (by cases device <;> simp)
    dsimp only at hv
    split_ifs at hv with hspeed hopen htty hattr
    exact ⟨eq_false_of_ne_true hspeed, eq_false_of_ne_true hopen, eq_false_of_ne_true htty,
      eq_false_of_ne_true hattr⟩
  have hring : env.fails .ringInit = false ∧ env.fails .uartThreadCreate = false := by
    dsimp only at hthread
    split_ifs at hthread with hring hcreate
    exact ⟨eq_false_of_ne_true hring, eq_false_of_ne_true hcreate⟩
  have hbus : env.fails .i2cOpen = false ∧ env.fails .i2cFuncs = false ∧
      env.fails .i2cSupport = false := by
    unfold halI2cInit at hi2c
    dsimp only at hi2c
    split_ifs at hi2c with hopen hfuncs hsupport
    exact ⟨eq_false_of_ne_true hopen, eq_false_of_ne_true hfuncs, eq_false_of_ne_true hsupport⟩
  simp [driverPrims, hline, hdevice, hring, hbus]

/-! ## The first active object -/

/-- The start fails and the first queue has a pointer to a buffer that was given back, or the thread
of the first active object is running. -/
def Stuck (result : Status × World) : Prop :=
  (result.1 ≠ .successful ∧ result.2.buffer .distance = true ∧
    .queueBuffer .distance ∈ result.2.released) ∨ result.2.Holds (.thread .distance)

theorem Stuck.andThen {result : Status × World} {next : World → Status × World} (h : Stuck result)
    (hnext : ∀ w, w.Holds (.thread .distance) → (next w).2.Holds (.thread .distance)) :
    Stuck (andThen result next) := by
  unfold Bridge.andThen
  split_ifs with hsuccessful
  · rcases h with ⟨hfailed, -⟩ | hholds
    · contradiction
    · exact .inr (hnext _ hholds)
  · exact h

@[simp] theorem osalCreate_buffer (alloc create : Prim) (r : Resource) :
    (osalCreate env alloc create r w).2.buffer = w.buffer := by
  unfold osalCreate
  split_ifs <;> rfl

/-- A queue that is not initialised keeps the pointer to the buffer that it has freed. -/
theorem utilQueueInit_failed {m : Module} (hbuffer : env.fails (.bufferAlloc m) = false)
    (hfailed : (utilQueueInit env m w).1 ≠ .successful) :
    (utilQueueInit env m w).2.buffer m = true ∧
      .queueBuffer m ∈ (utilQueueInit env m w).2.released := by
  revert hfailed
  unfold utilQueueInit osalMutexInit osalCondInit
  rw [if_neg (by simp [hbuffer])]
  dsimp only
  split_ifs
  · intro _
    constructor <;> simp [World.release]
  · intro _
    constructor <;> simp [World.release]
  · exact fun hfailed => absurd rfl hfailed

theorem utilQueueInit_up {m : Module} (hup : (utilQueueInit env m w).1 = .successful) :
    (utilQueueInit env m w).2.buffer m = true := by
  revert hup
  unfold utilQueueInit osalMutexInit osalCondInit
  dsimp only
  split_ifs
  · simp
  · simp
  · simp
  · intro _
    simp

theorem osalThreadCreate_up {m : Module} (hfree : .thread m ∉ w.released)
    (hup : (osalThreadCreate env m w).1 = .successful) :
    (osalThreadCreate env m w).2.Holds (.thread m) := by
  revert hup
  unfold osalThreadCreate osalCreate
  split_ifs
  · simp [Bridge.andThen]
  · simp [Bridge.andThen]
  · intro _
    exact (holds_stable (.thread m)).acquireAll _
      ⟨List.mem_append_right _ (List.mem_singleton_self _), hfree⟩

theorem World.releaseAll_eq (w : World) (rs : List Resource) :
    w.releaseAll rs = { w with released := w.released ++ rs } := by
  induction rs generalizing w with
  | nil => simp [World.releaseAll]
  | cons r rs ih =>
    change (w.release r).releaseAll rs = _
    rw [ih]
    simp [World.release]

theorem World.acquireAll_eq (w : World) (rs : List Resource) :
    rs.foldl World.acquire w = { w with acquired := w.acquired ++ rs } := by
  induction rs generalizing w with
  | nil => simp
  | cons r rs ih =>
    change rs.foldl World.acquire (w.acquire r) = _
    rw [ih]
    simp [World.acquire]

@[simp] theorem osalThreadCreate_buffer (m : Module) :
    (osalThreadCreate env m w).2.buffer = w.buffer := by
  unfold osalThreadCreate osalCreate
  simp only [World.acquireAll_eq]
  split_ifs <;> rfl

theorem utilActiveObjectInit_stuck (hbuffer : env.fails (.bufferAlloc .distance) = false)
    (hfree : .thread .distance ∉ w.released) : Stuck (utilActiveObjectInit env .distance w) := by
  unfold utilActiveObjectInit
  dsimp only
  split_ifs with hqueue hthread
  · exact .inl ⟨by simp, utilQueueInit_failed hbuffer hqueue⟩
  · refine .inl ⟨by simp, ?_, ?_⟩
    · have hup := utilQueueInit_up (of_not_not hqueue)
      simpa [utilQueueDelete, queueResources, World.releaseAll, World.release] using hup
    · simp [utilQueueDelete, queueResources, World.releaseAll, World.release]
  · have hkept : .thread .distance ∉ queueResources .distance := by simp [queueResources]
    have hfree' := (notReleased_stable (.thread .distance)).utilQueueInit env hkept hfree
    exact .inr (osalThreadCreate_up hfree' (of_not_not hthread))

/-- The thread of the first active object outlives every later step of `app_init`. -/
theorem appInit_stuck (hbuffer : env.fails (.bufferAlloc .distance) = false)
    (hfree : .thread .distance ∉ w.released) : Stuck (appInit env w) := by
  have hP := holds_stable (.thread .distance)
  have hmodules (ms : List Module) (hms : .distance ∉ ms) (v : World)
      (hv : v.Holds (.thread .distance)) :
      (forEach (moduleUp env) ms v).2.Holds (.thread .distance) := by
    refine Stable.forEach (P := (World.Holds · (.thread .distance))) (fun m hm u hu => ?_) hv
    refine hP.moduleUp ?_ hu
    have hne : Module.distance ≠ m := fun heq => hms (heq ▸ hm)
    simpa [ownResources, queueResources] using hne
  have hfirst : Stuck (moduleUp env .distance w) := by
    refine Stuck.andThen (utilActiveObjectInit_stuck hbuffer hfree) fun v hv => ?_
    exact Stable.forEach (P := (World.Holds · (.thread .distance)))
      (fun event _ u hu => hP.utilEventBusSubscribe env .distance event hu) hv
  refine Stuck.andThen (Stuck.andThen hfirst (hmodules _ (by decide))) fun v hv => ?_
  refine Stable.andThen (P := (World.Holds · (.thread .distance)))
    (hmodules _ (by decide) v hv) fun u hu => ?_
  exact Stable.forEach (P := (World.Holds · (.thread .distance)))
    (fun slot _ x hx => hP.appSchedulerSubscribe slot hx) hu

@[simp] theorem osalCreate_subscriptions (alloc create : Prim) (r : Resource) :
    (osalCreate env alloc create r w).2.subscriptions = w.subscriptions := by
  unfold osalCreate
  split_ifs <;> rfl

@[simp] theorem osalThreadCreate_subscriptions (m : Module) :
    (osalThreadCreate env m w).2.subscriptions = w.subscriptions := by
  unfold osalThreadCreate osalCreate
  simp only [World.acquireAll_eq]
  split_ifs <;> rfl

@[simp] theorem utilQueueInit_subscriptions (m : Module) :
    (utilQueueInit env m w).2.subscriptions = w.subscriptions := by
  unfold utilQueueInit osalMutexInit osalCondInit
  dsimp only
  split_ifs <;> simp [World.acquire, World.release]

@[simp] theorem moduleInit_subscriptions (m : Module) :
    (moduleInit env m w).2.subscriptions = w.subscriptions := by
  unfold moduleInit utilActiveObjectInit
  dsimp only
  split_ifs <;> simp [utilQueueDelete, World.releaseAll_eq]

theorem moduleUp_subscriptions (m : Module) (w : World)
    (hup : (moduleUp env m w).1 = .successful) :
    (moduleUp env m w).2.subscriptions = w.subscriptions ++ (subscribeEvents m).map (m, ·) := by
  obtain ⟨hinit, hsubscribe⟩ := andThen_successful.mp hup
  have hone (event : Event) (v : World)
      (hv : (utilEventBusSubscribe env m event v).1 = .successful) :
      (utilEventBusSubscribe env m event v).2.subscriptions = v.subscriptions ++ [(m, event)] := by
    unfold utilEventBusSubscribe at hv ⊢
    split_ifs at hv ⊢
    rfl
  rw [moduleUp, andThen, if_pos hinit, forEach_collects hone hsubscribe, moduleInit_subscriptions,
    List.map_eq_flatMap]

/-- Once `app_init` is through, the active subscriptions are those of the two tables. -/
theorem appInit_subscriptions (hup : (appInit env w).1 = .successful) :
    (appInit env w).2.subscriptions =
      w.subscriptions ++ (ddlModules ++ appModules).flatMap
        fun m => (subscribeEvents m).map (m, ·) := by
  obtain ⟨hddl, happ⟩ := andThen_successful.mp hup
  obtain ⟨hmodules, hslots⟩ := andThen_successful.mp happ
  have hslot (slot : ℕ) (v : World) (hv : (appSchedulerSubscribe slot v).1 = .successful) :
      (appSchedulerSubscribe slot v).2.subscriptions = v.subscriptions ++ [] := by
    unfold appSchedulerSubscribe
    split_ifs <;> simp
  rw [appInit, andThen, if_pos hddl, andThen, if_pos hmodules, forEach_collects hslot hslots,
    forEach_collects moduleUp_subscriptions hmodules, ddlInit,
    forEach_collects moduleUp_subscriptions hddl, List.flatMap_append]
  simp

/-- A start that comes through leaves the subscriptions that the running system has. -/
theorem appInit_subscribed (hup : (appInit env w).1 = .successful) (hfresh : w.subscriptions = [])
    (m : Module) (event : Event) :
    (m, event) ∈ (appInit env w).2.subscriptions ↔ subscribed m event = true := by
  rw [appInit_subscriptions hup, hfresh]
  cases m <;> cases event <;> decide

/-! ## The whole start -/

/-- Only the bus, the drivers and the bridge are given back when `app_init` has failed. -/
theorem Stuck.not_clean {result : Status × World} (h : Stuck result) :
    ¬ (ddlBridgeStop ⟨true, true, false, false⟩ result.2).Clean := by
  intro hclean
  rcases h with ⟨-, hpointer, hreleased⟩ | hholds
  · refine hclean.buffers .distance ?_ ?_
    · simpa [ddlBridgeStop, halCleanup, utilEventBusDelete, World.releaseAll_eq, World.release]
        using hpointer
    · simp [ddlBridgeStop, halCleanup, utilEventBusDelete, World.releaseAll_eq, World.release,
        hreleased]
  · have hP := holds_stable (.thread .distance)
    have hbus : (utilEventBusDelete result.2).Holds (.thread .distance) :=
      hP.release { result.2 with subscriptions := [] } .busMutex (by simp) hholds
    have hhal : (halCleanup (utilEventBusDelete result.2)).Holds (.thread .distance) :=
      hP.releaseAll (by simp [halResources]) hbus
    exact hclean.not_holds (hP.release _ .bridge (by simp) hhal)

theorem utilEventBusInit_up (halloc : env.fails .busMutexAlloc = false)
    (hinit : env.fails .busMutexInit = false) (w : World) :
    utilEventBusInit env w =
      (.successful, { w with acquired := w.acquired ++ [.busMutex], subscriptions := [] }) := by
  simp [utilEventBusInit, osalCreate, halloc, hinit, World.acquire]

/-- What a start has taken when its drivers are up. -/
def World.driversUp : World := { World.init with acquired := .bridge :: driversTaken }

theorem halInit_driversUp (hchip : env.fails .chipOpen = false)
    (hprims : ∀ p ∈ driverPrims, env.fails p = false) :
    halInit env (World.init.acquire .bridge) = (.successful, .driversUp) := by
  rw [halInit_up hchip hprims]
  rfl

/-- What a start has taken when the event bus is up too. -/
def World.busUp : World := { World.init with acquired := .bridge :: driversTaken ++ [.busMutex] }

theorem Env.Fits.allOrNothing (h : Env.Fits env) : AllOrNothing env := by
  intro hfails
  by_cases hcalloc : env.fails .calloc = true
  · rw [ddlBridgeStart, if_pos hcalloc]
    exact ⟨rfl, by decide, by decide, rfl, by simp [World.init]⟩
  by_cases hchip : env.fails .chipOpen = true
  · have hstart : ddlBridgeStart env .init =
        (none, (World.init.acquire .bridge).release .bridge) := by
      simp [ddlBridgeStart, halInit, halGpioInit, andThen, hcalloc, hchip]
    rw [hstart]
    exact ⟨rfl, by decide, by decide, rfl, by simp [World.init, World.acquire, World.release]⟩
  obtain hno | hyes | hyes | ⟨hprims, hlate⟩ := h
  · exact absurd hfails hno
  · exact absurd hyes hcalloc
  · exact absurd hyes hchip
  have hhal := halInit_driversUp (eq_false_of_ne_true hchip) hprims
  by_cases halloc : env.fails .busMutexAlloc = true
  · have hbus : utilEventBusInit env .driversUp = (.systemError, .driversUp) := by
      simp [utilEventBusInit, osalCreate, halloc, World.driversUp, World.init]
    have hstart : ddlBridgeStart env .init =
        (none, ddlBridgeStop ⟨true, false, false, false⟩ .driversUp) := by
      simp [ddlBridgeStart, hcalloc, hhal, hbus]
    rw [hstart]
    exact ⟨rfl, by decide, by decide, rfl,
      by simp [ddlBridgeStop, halCleanup, World.releaseAll_eq, World.release, World.driversUp,
        World.init]⟩
  by_cases hinit : env.fails .busMutexInit = true
  · have hbus : utilEventBusInit env .driversUp =
        (.systemError, (World.driversUp.acquire .busMutex).release .busMutex) := by
      simp [utilEventBusInit, osalCreate, halloc, hinit, World.driversUp, World.init]
    have hstart : ddlBridgeStart env .init =
        (none, ddlBridgeStop ⟨true, false, false, false⟩
          ((World.driversUp.acquire .busMutex).release .busMutex)) := by
      simp [ddlBridgeStart, hcalloc, hhal, hbus]
    rw [hstart]
    exact ⟨rfl, by decide, by decide, rfl,
      by simp [ddlBridgeStop, halCleanup, World.releaseAll_eq, World.release, World.acquire,
        World.driversUp, World.init]⟩
  have hbuffer : env.fails (.bufferAlloc .distance) = true :=
    (hlate.resolve_left halloc).resolve_left hinit
  have hbus : utilEventBusInit env .driversUp = (.successful, .busUp) :=
    utilEventBusInit_up (eq_false_of_ne_true halloc) (eq_false_of_ne_true hinit) .driversUp
  have hempty : Function.update World.init.buffer .distance false = World.init.buffer :=
    Function.update_eq_self Module.distance World.init.buffer
  have happ : appInit env .busUp = (.systemError, .busUp) := by
    simp [appInit, ddlInit, ddlModules, forEach, moduleUp, moduleInit, utilActiveObjectInit,
      utilQueueInit, andThen, hbuffer, World.busUp, hempty]
  have hstart : ddlBridgeStart env .init =
      (none, ddlBridgeStop ⟨true, true, false, false⟩ .busUp) := by
    simp [ddlBridgeStart, hcalloc, hhal, hbus, happ]
  rw [hstart]
  exact ⟨rfl, by decide, by decide, rfl,
    by simp [ddlBridgeStop, halCleanup, utilEventBusDelete, World.releaseAll_eq, World.release,
      World.busUp, World.init]⟩

theorem AllOrNothing.fits (h : AllOrNothing env) : Env.Fits env := by
  by_cases hfails : env.Fails
  swap
  · exact .inl hfails
  obtain ⟨hnone, hclean⟩ := h hfails
  by_cases hcalloc : env.fails .calloc = true
  · exact .inr (.inl hcalloc)
  by_cases hchip : env.fails .chipOpen = true
  · exact .inr (.inr (.inl hchip))
  by_cases hup : (halInit env (World.init.acquire .bridge)).1 = .successful
  swap
  · rw [ddlBridgeStart, if_neg hcalloc] at hclean
    dsimp only at hclean
    rw [if_pos hup] at hclean
    have hholds : (halInit env (World.init.acquire .bridge)).2.Holds .gpioChip :=
      halInit_holds (eq_false_of_ne_true hchip) (by decide)
    have hkept := (holds_stable .gpioChip).release _ .bridge (by decide) hholds
    exact absurd hkept hclean.not_holds
  have hprims := halInit_driverPrims hup
  refine .inr (.inr (.inr ⟨hprims, ?_⟩))
  by_contra hlate
  simp only [not_or, Bool.not_eq_true] at hlate
  obtain ⟨halloc, hinit, hbuffer⟩ := hlate
  have hhal := halInit_driversUp (eq_false_of_ne_true hchip) hprims
  have hbus : utilEventBusInit env .driversUp = (.successful, .busUp) :=
    utilEventBusInit_up halloc hinit .driversUp
  have hstuck : Stuck (appInit env .busUp) := appInit_stuck hbuffer (by decide)
  simp only [ddlBridgeStart, if_neg hcalloc, hhal, hbus, ne_eq, not_true_eq_false,
    if_false] at hnone hclean
  by_cases happ : (appInit env .busUp).1 = .successful
  · have hpublish : (utilEventBusPublish .scheduler .start (appInit env .busUp).2).1 =
        .successful := by
      have hstart := (appInit_subscribed happ rfl .scheduler .start).mpr rfl
      rw [utilEventBusPublish, if_pos ⟨_, hstart, rfl, rfl⟩]
    simp [happ, hpublish] at hnone
  · rw [if_pos happ] at hclean
    exact hstuck.not_clean hclean

/-- A start is all or nothing exactly when the step that fails comes before the GPIO chip is open,
or between the drivers and the first queue's buffer. -/
theorem start_all_or_nothing_iff (env : Env) : AllOrNothing env ↔ Env.Fits env :=
  ⟨AllOrNothing.fits, Env.Fits.allOrNothing⟩

/-- The thread of the GPS is not created: the start returns `NULL` and deletes the event bus, and
the threads of the other three modules of the DDL run on. -/
theorem threads_outlive_start :
    ∃ env : Env, env.fails (.threadCreate .gps) = true ∧ (ddlBridgeStart env .init).1 = none ∧
      .busMutex ∈ (ddlBridgeStart env .init).2.released ∧
      (∀ m ∈ [Module.distance, .servo, .temperatureHumidity],
        (ddlBridgeStart env .init).2.Holds (.thread m)) ∧
      ¬ AllOrNothing env := by
  let env : Env := ⟨fun p => p = .threadCreate .gps, 32, fun _ => 0⟩
  have hnone : (ddlBridgeStart env .init).1 = none := by decide
  have hholds : ∀ m ∈ [Module.distance, .servo, .temperatureHumidity],
      (ddlBridgeStart env .init).2.Holds (.thread m) := by
    unfold World.Holds
    decide
  refine ⟨env, rfl, hnone, by decide, hholds, fun hall => ?_⟩
  exact (hall (.inl ⟨.threadCreate .gps, rfl⟩)).2.not_holds (hholds .distance (by decide))

end SnipeIt.Bridge
