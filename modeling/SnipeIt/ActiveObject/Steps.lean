import SnipeIt.ActiveObject.Teardown

/-! # What one step does

The steps of the system case by case, and what every module has to do with its
own timer, its own UART device and its own machine only.
-/

namespace SnipeIt.ActiveObject
open Hal Support

namespace System

variable {s t : System} {m k : Module} {act : Act}

/-- The queue of a module after its first event was taken. -/
def popped (s : System) (m : Module) (events : List Event) : System :=
  { s with queue := Function.update s.queue m { s.queue m with events } }

@[simp] theorem publish_thread (s : System) (ao : Module) (event : Event) :
    (s.publish ao event).thread = s.thread := by
  unfold publish
  split_ifs <;> rfl

@[simp] theorem publish_machine (s : System) (ao : Module) (event : Event) :
    (s.publish ao event).machine = s.machine := by
  unfold publish
  split_ifs <;> rfl

@[simp] theorem publish_timer (s : System) (ao : Module) (event : Event) :
    (s.publish ao event).timer = s.timer := by
  unfold publish
  split_ifs <;> rfl

@[simp] theorem call_thread (s : System) (m : Module) (data : Option SlotRef)
    (answer : Submission) (c : Call) : (s.call m data answer c).thread = s.thread := by
  cases c <;> simp [call, setTimer]

@[simp] theorem call_machine (s : System) (m : Module) (data : Option SlotRef)
    (answer : Submission) (c : Call) : (s.call m data answer c).machine = s.machine := by
  cases c <;> simp [call, setTimer]

/-- The steps of the system, one constructor for each thing that a step can do. -/
inductive Effect (s : System) : Act → System → Prop where
  | ignored {ao event} (hup : s.phase = .up) : Effect s (.publish ao event) s
  | published {ao event} (hup : s.phase = .up) (hsub : subscribed ao event = true) :
      Effect s (.publish ao event) (s.post ao event)
  | stopped {caller} (hup : s.phase = .up) :
      Effect s (.stop caller) { s with phase := stopPhase caller }
  | allPosted (hphase : s.phase = .ending []) :
      Effect s .teardown { s with phase := .joining modules }
  | endPosted {m rest} (hphase : s.phase = .ending (m :: rest)) (hroom : (s.queue m).HasRoom) :
      Effect s .teardown { s.post m .fsmEnd with phase := .ending rest }
  | endRefused {m rest} (hphase : s.phase = .ending (m :: rest))
      (hroom : ¬ (s.queue m).HasRoom) :
      Effect s .teardown { s.post m .fsmEnd with phase := .joining modules }
  | allJoined (hphase : s.phase = .joining []) :
      Effect s .teardown { s with phase := .deleting (modules.flatMap moduleDelete) }
  | joined {m rest} (hphase : s.phase = .joining (m :: rest)) (hended : s.thread m = .ended) :
      Effect s .teardown { s.setThread m .joined with phase := .joining rest }
  | allDeleted (hphase : s.phase = .deleting []) :
      Effect s .teardown { s with phase := .busDeleting }
  | deleted {d rest} (hphase : s.phase = .deleting (d :: rest)) :
      Effect s .teardown { s.deleteStep d with phase := .deleting rest }
  | busDeleted (hphase : s.phase = .busDeleting) :
      Effect s .teardown { s with bus := false, phase := .uartStopping }
  | uartJoined (hphase : s.phase = .uartJoining) (hexited : s.uart.thread = .exited) :
      Effect s .teardown { s with phase := .down }
  | uartStopped {data answer} (hphase : s.phase = .uartStopping) :
      Effect s (.uartStop data answer)
        { s with uart := s.uart.stop data answer, phase := .uartJoining }
  | started {m answers} (hthread : s.thread m = .created) :
      Effect s (.threadStart m answers) (s.dispatched m ((s.machine m).init answers))
  | poppedEnd {m answers events} (hthread : s.thread m = .running [])
      (hevents : (s.queue m).events = .fsmEnd :: events) :
      Effect s (.threadPop m answers) ((s.popped m events).setThread m .ended)
  | poppedEvent {m answers event events} (hthread : s.thread m = .running [])
      (hevents : (s.queue m).events = event :: events) (hend : event ≠ .fsmEnd) :
      Effect s (.threadPop m answers)
        ((s.popped m events).dispatched m ((s.machine m).dispatch answers event))
  | called {m data answer c calls} (hthread : s.thread m = .running (c :: calls)) :
      Effect s (.threadCall m data answer) ((s.setThread m (.running calls)).call m data answer c)
  | expiredOnce {m handler} (htimer : s.timer m = some ⟨handler, some .once⟩) :
      Effect s (.expire m)
        { s.setTimer m (some ⟨handler, none⟩) with handlers := (m, handler) :: s.handlers }
  | expiredRepeated {m handler} (htimer : s.timer m = some ⟨handler, some .repeated⟩) :
      Effect s (.expire m) { s with handlers := (m, handler) :: s.handlers }
  | handled {handler} (hmem : handler ∈ s.handlers) :
      Effect s (.handle handler)
        ({ s with handlers := s.handlers.erase handler }.post handler.1 handler.2)
  | checked {uart} (hcheck : s.uart.check = some uart) : Effect s .uartCheck { s with uart }
  | completed {n positive uart} (hcomplete : s.uart.complete n positive = some (uart, none)) :
      Effect s (.uartComplete n positive) { s with uart }
  | calledBack {n positive uart m event}
      (hcomplete : s.uart.complete n positive = some (uart, some (m, event))) :
      Effect s (.uartComplete n positive) ({ s with uart }.post m event)

theorem publish_effect {ao : Module} {event : Event} (hstep : Step s (.publish ao event) t) :
    Effect s (.publish ao event) t := by
  simp only [Step, apply] at hstep
  split at hstep
  · rename_i hup
    cases hstep
    unfold publish
    split_ifs with hsub
    · exact .published hup (Bool.and_eq_true_iff.mp hsub).2
    · exact .ignored hup
  · cases hstep

theorem teardown_effect (hstep : Step s .teardown t) : Effect s .teardown t := by
  simp only [Step, apply, teardown] at hstep
  split at hstep
  case h_1 hphase =>
    cases hstep
    exact .allPosted hphase
  case h_2 m rest hphase =>
    cases hstep
    split_ifs with hroom
    · exact .endPosted hphase hroom
    · exact .endRefused hphase hroom
  case h_3 hphase =>
    cases hstep
    exact .allJoined hphase
  case h_4 m rest hphase =>
    split_ifs at hstep with hended
    cases hstep
    exact .joined hphase hended
  case h_5 hphase =>
    cases hstep
    exact .allDeleted hphase
  case h_6 d rest hphase =>
    cases hstep
    exact .deleted hphase
  case h_7 hphase =>
    cases hstep
    exact .busDeleted hphase
  case h_8 hphase =>
    split_ifs at hstep with hexited
    cases hstep
    exact .uartJoined hphase hexited
  case h_9 => cases hstep

theorem threadPop_effect {answers : Answers} (hstep : Step s (.threadPop m answers) t) :
    Effect s (.threadPop m answers) t := by
  simp only [Step, apply, threadPop] at hstep
  split_ifs at hstep with hthread
  split at hstep
  · cases hstep
  · rename_i event events hevents
    split_ifs at hstep with hend
    · cases hstep
      exact .poppedEnd hthread (hend ▸ hevents)
    · cases hstep
      exact .poppedEvent hthread hevents hend

/-- Every step is one of these. -/
theorem step_effect (hstep : Step s act t) : Effect s act t := by
  cases act with
  | publish ao event => exact publish_effect hstep
  | stop caller =>
    simp only [Step, apply] at hstep
    split at hstep
    · rename_i hup
      cases hstep
      exact .stopped hup
    · cases hstep
  | teardown => exact teardown_effect hstep
  | uartStop data answer =>
    simp only [Step, apply] at hstep
    split at hstep
    · rename_i hphase
      cases hstep
      exact .uartStopped hphase
    · cases hstep
  | threadStart m answers =>
    simp only [Step, apply, threadStart] at hstep
    split_ifs at hstep with hthread
    cases hstep
    exact .started hthread
  | threadPop m answers => exact threadPop_effect hstep
  | threadCall m data answer =>
    obtain ⟨c, calls, hthread, rfl⟩ := threadCall_eq_some hstep
    exact .called hthread
  | expire m =>
    simp only [Step, apply, expire] at hstep
    split at hstep
    · rename_i handler htimer
      cases hstep
      exact .expiredOnce htimer
    · rename_i handler htimer
      cases hstep
      exact .expiredRepeated htimer
    · cases hstep
  | handle handler =>
    simp only [Step, apply, handle] at hstep
    split_ifs at hstep with hmem
    cases hstep
    exact .handled hmem
  | uartCheck =>
    obtain ⟨uart, hcheck, rfl⟩ := Option.map_eq_some_iff.mp hstep
    exact .checked hcheck
  | uartComplete n positive =>
    simp only [Step, apply, uartComplete] at hstep
    split at hstep
    · cases hstep
    · rename_i uart hcomplete
      cases hstep
      exact .completed hcomplete
    · rename_i uart m event hcomplete
      cases hstep
      exact .calledBack hcomplete

end System

/-! ## Each module keeps to its own -/

def Module.timerEvent : Module → Option Event
  | .scheduler => some .tick
  | .distance => some .timeout
  | .servo => some .rotationTimeout
  | .gps => some .timeout
  | _ => none

def Module.device : Module → Option Device
  | .distance => some Distance.device
  | .gps => some Gps.device
  | _ => none

/-- The events that a UART callback posts. -/
def Event.OfUart (event : Event) : Prop := event = .frameReceived ∨ event = .configured

def Call.Of (m : Module) : Call → Prop
  | .timerInit handler => m.timerEvent = some handler
  | .uartWrite device callback => m.device = some device ∧ ∀ event ∈ callback, event = .configured
  | .uartRead device callback =>
    m.device = some device ∧ ∀ event ∈ callback, event = .frameReceived
  | _ => True

def Machine.module : Machine → Module
  | .scheduler _ => .scheduler
  | .broadcaster _ => .broadcaster
  | .distance _ => .distance
  | .servo _ => .servo
  | .temperatureHumidity _ => .temperatureHumidity
  | .gps _ => .gps

@[simp] theorem Machine.created_module (m : Module) : (Machine.created m).module = m := by
  cases m <;> rfl

/-- A machine in a state, and calls, of one module. -/
def Machine.Fits (m : Module) (result : Machine × List Call) : Prop :=
  result.1.module = m ∧ ∀ c ∈ result.2, c.Of m

theorem Sensor.enterRead_of {m : Module} {device : Device} (hdevice : m.device = some device)
    (s : Sensor) : ∀ c ∈ (s.enterRead device).2, c.Of m := by
  simp [Sensor.enterRead, Call.Of, hdevice]

theorem Sensor.retryHandler_of {m : Module} {device : Device} (hdevice : m.device = some device)
    (s : Sensor) : ∀ c ∈ (s.retryHandler device).2, c.Of m := by
  unfold Sensor.retryHandler
  split_ifs
  · exact Sensor.enterRead_of hdevice _
  · simp

theorem Sensor.dispatch_of {m : Module} {device : Device} (hdevice : m.device = some device)
    (answers : Answers) (event : Event) (s : Sensor) :
    ∀ c ∈ (s.dispatch device answers event).2, c.Of m := by
  unfold Sensor.dispatch
  split
  · split
    · exact Sensor.enterRead_of hdevice s
    · simp
  · split
    · unfold Sensor.enterUpdate
      split_ifs
      · simp [Call.Of]
      · simpa [Call.Of] using Sensor.retryHandler_of hdevice _
    · simp
  · split
    · simpa [Call.Of] using Sensor.retryHandler_of hdevice s
    · simp
  · simp

theorem Scheduler.publishSlot_of (m : Module) (slot : ℕ) :
    ∀ c ∈ Scheduler.publishSlot slot, c.Of m := by
  unfold Scheduler.publishSlot
  split <;> simp [Call.Of]

theorem Scheduler.dispatch_of (event : Event) (s : Scheduler) :
    ∀ c ∈ (s.dispatch event).2, c.Of .scheduler := by
  unfold Scheduler.dispatch
  split
  · split
    · simpa [Call.Of] using Scheduler.publishSlot_of .scheduler 0
    · simp
  · split <;> simp [Call.Of]
  · split
    · exact Scheduler.publishSlot_of .scheduler _
    · simp
  · simp

theorem Gps.configSendCurrentStep_of : ∀ c ∈ Gps.configSendCurrentStep, c.Of .gps := by
  simp [Gps.configSendCurrentStep, Call.Of, Module.device, Gps.device]

theorem Gps.dispatch_of (answers : Answers) (event : Event) (s : Gps) :
    ∀ c ∈ (s.dispatch answers event).2, c.Of .gps := by
  unfold Gps.dispatch
  split_ifs
  · split
    · unfold Gps.configured
      dsimp only
      split_ifs
      · exact Gps.configSendCurrentStep_of
      · simp
    · simp
  · exact Sensor.dispatch_of rfl answers event s.sensor

theorem ServoState.dispatch_of (event : Event) (s : ServoState) :
    ∀ c ∈ (s.dispatch event).2, c.Of .servo := by
  unfold ServoState.dispatch
  split <;> simp [Call.Of]

theorem Machine.init_fits (answers : Answers) (machine : Machine) :
    Machine.Fits machine.module (machine.init answers) := by
  refine ⟨by cases machine <;> rfl, ?_⟩
  cases machine with
  | scheduler s =>
    unfold Machine.init Scheduler.init
    split_ifs <;> simp [Call.Of, Machine.module, Module.timerEvent]
  | distance s =>
    unfold Machine.init Distance.init
    split_ifs <;> simp [Call.Of, Machine.module, Module.timerEvent]
  | servo s =>
    unfold Machine.init ServoState.start
    split_ifs <;> simp [Call.Of, Machine.module, Module.timerEvent]
  | gps s =>
    unfold Machine.init Gps.init
    split_ifs
    · simp [Call.Of, Machine.module, Module.timerEvent, Gps.configSendCurrentStep, Module.device]
    · simp
  | broadcaster | temperatureHumidity => simp [Machine.init]

theorem Machine.dispatch_fits (answers : Answers) (event : Event) (machine : Machine) :
    Machine.Fits machine.module (machine.dispatch answers event) := by
  refine ⟨by cases machine <;> rfl, ?_⟩
  cases machine with
  | scheduler s => exact s.dispatch_of event
  | distance s => exact s.dispatch_of rfl answers event
  | servo s => exact s.dispatch_of event
  | gps s => exact s.dispatch_of answers event
  | broadcaster | temperatureHumidity => simp [Machine.dispatch]

namespace System

variable {s t : System} {m k : Module} {act : Act}

/-- Every machine, pending call, timer, running handler and callback is its module's own. -/
structure Typed (s : System) : Prop where
  machine : ∀ m, (s.machine m).module = m
  created : ∀ m, s.thread m = .created → s.machine m = .created m
  calls : ∀ m calls, s.thread m = .running calls → ∀ c ∈ calls, c.Of m
  timer : ∀ m, ∀ timer ∈ s.timer m, m.timerEvent = some timer.handler
  handlers : ∀ handler ∈ s.handlers, handler.1.timerEvent = some handler.2
  slots : ∀ ref, ∀ cb ∈ (s.uart.slots ref).callback, cb.1.device = some ref.1 ∧ cb.2.OfUart

theorem init_typed : Typed init where
  machine m := Machine.created_module m
  created _ _ := rfl
  calls _ _ h := by cases h
  timer _ _ h := by cases h
  handlers _ h := by cases h
  slots _ _ h := by cases h

theorem Typed.dispatched (h : s.Typed) {result : Machine × List Call}
    (hresult : Machine.Fits m result) : (s.dispatched m result).Typed := by
  refine ⟨fun k => ?_, fun k hk => ?_, fun k calls hcalls => ?_, h.timer, h.handlers, h.slots⟩
  · by_cases hk : k = m
    · subst hk
      simpa [System.dispatched] using hresult.1
    · simpa [System.dispatched, hk] using h.machine k
  · by_cases hkm : k = m
    · subst hkm
      simp [System.dispatched] at hk
    · simp only [System.dispatched, Function.update_of_ne hkm] at hk ⊢
      exact h.created k hk
  · by_cases hk : k = m
    · subst hk
      simp only [System.dispatched, Function.update_self, Thread.running.injEq] at hcalls
      exact hcalls ▸ hresult.2
    · simp only [System.dispatched, Function.update_of_ne hk] at hcalls
      exact h.calls k calls hcalls

theorem Typed.setThread (h : s.Typed) {thread : Thread}
    (hcreated : thread ≠ .created)
    (hthread : ∀ calls, thread = .running calls → ∀ c ∈ calls, c.Of m) :
    (s.setThread m thread).Typed := by
  refine ⟨h.machine, fun k hk => ?_, fun k calls hcalls => ?_, h.timer, h.handlers, h.slots⟩
  · by_cases hkm : k = m
    · subst hkm
      simp only [System.setThread, Function.update_self] at hk
      exact absurd hk hcreated
    · simp only [System.setThread, Function.update_of_ne hkm] at hk
      exact h.created k hk
  by_cases hk : k = m
  · subst hk
    simp only [System.setThread, Function.update_self] at hcalls
    exact hthread calls hcalls
  · simp only [System.setThread, Function.update_of_ne hk] at hcalls
    exact h.calls k calls hcalls

theorem Typed.setTimer (h : s.Typed) {timer : Option Timer}
    (htimer : ∀ t ∈ timer, m.timerEvent = some t.handler) : (s.setTimer m timer).Typed := by
  refine ⟨h.machine, h.created, h.calls, fun k t ht => ?_, h.handlers, h.slots⟩
  by_cases hk : k = m
  · subst hk
    simp only [System.setTimer, Function.update_self] at ht
    exact htimer t ht
  · simp only [System.setTimer, Function.update_of_ne hk] at ht
    exact h.timer k t ht

theorem Typed.transfer (h : s.Typed) {device : Device} {callback : Option Event}
    {answer : Submission} (hdevice : m.device = some device)
    (hcallback : ∀ event ∈ callback, event.OfUart) :
    Typed { s with uart := s.uart.transfer device (callback.map (m, ·)) answer } := by
  refine ⟨h.machine, h.created, h.calls, h.timer, h.handlers, fun ref cb hcb => ?_⟩
  rcases Uart.transfer_slots hcb with ⟨href, hnew⟩ | hold
  · obtain ⟨event, hevent, rfl⟩ := Option.map_eq_some_iff.mp hnew
    exact ⟨href ▸ hdevice, hcallback event hevent⟩
  · exact h.slots ref cb hold

theorem Typed.timerSet (h : s.Typed) (armed : Option TimerType) :
    (s.setTimer m ((s.timer m).map ({ · with armed }))).Typed := by
  refine h.setTimer fun timer htimer => ?_
  obtain ⟨old, hold, rfl⟩ := Option.map_eq_some_iff.mp htimer
  exact h.timer m old hold

theorem Typed.post (h : s.Typed) (event : Event) : (s.post m event).Typed :=
  ⟨h.machine, h.created, h.calls, h.timer, h.handlers, h.slots⟩

theorem Typed.call (h : s.Typed) {data : Option SlotRef} {answer : Submission} {c : Call}
    (hc : c.Of m) : (s.call m data answer c).Typed := by
  cases c with
  | timerInit handler =>
    refine h.setTimer fun timer htimer => ?_
    cases htimer
    exact hc
  | timerArm type => exact h.timerSet (some type)
  | timerDisarm => exact h.timerSet none
  | uartWrite => exact h.transfer hc.1 fun event hevent => .inr (hc.2 event hevent)
  | uartRead => exact h.transfer hc.1 fun event hevent => .inl (hc.2 event hevent)
  | uartAbort =>
    refine ⟨h.machine, h.created, h.calls, h.timer, h.handlers, ?_⟩
    simpa [System.call, Uart.abort] using h.slots
  | publish ao event =>
    rcases publish_eq s ao event with heq | heq <;> rw [System.call, heq]
    · exact h
    · exact h.post event

theorem Typed.popped (h : s.Typed) (events : List Event) : (s.popped m events).Typed :=
  ⟨h.machine, h.created, h.calls, h.timer, h.handlers, h.slots⟩

theorem Typed.withUart (h : s.Typed) {uart : Uart (Module × Event)}
    (hslots : ∀ ref, (uart.slots ref).callback = (s.uart.slots ref).callback) :
    Typed { s with uart } :=
  ⟨h.machine, h.created, h.calls, h.timer, h.handlers,
    fun ref cb hcb => h.slots ref cb (hslots ref ▸ hcb)⟩

theorem Typed.step (h : s.Typed) (hstep : Step s act t) : t.Typed := by
  cases step_effect hstep with
  | ignored => exact h
  | published => exact h.post _
  | @endPosted m rest | @endRefused m rest =>
    exact ⟨h.machine, h.created, h.calls, h.timer, h.handlers, h.slots⟩
  | @joined m rest =>
    have hjoined : (s.setThread m .joined).Typed :=
      h.setThread (by simp) fun _ hcalls => by cases hcalls
    exact ⟨hjoined.machine, hjoined.created, hjoined.calls, hjoined.timer, hjoined.handlers,
      hjoined.slots⟩
  | @deleted d rest =>
    cases d with
    | queueDelete => exact ⟨h.machine, h.created, h.calls, h.timer, h.handlers, h.slots⟩
    | timerDestroy k =>
      have htimer : (s.setTimer k none).Typed := h.setTimer fun _ ht => by cases ht
      exact ⟨htimer.machine, htimer.created, htimer.calls, htimer.timer, htimer.handlers,
        htimer.slots⟩
  | uartStopped =>
    refine ⟨h.machine, h.created, h.calls, h.timer, h.handlers, ?_⟩
    simpa [Uart.stop] using h.slots
  | @started m answers =>
    refine h.dispatched ?_
    have hfits := (s.machine m).init_fits answers
    rwa [h.machine m] at hfits
  | poppedEnd => exact (h.popped _).setThread (by simp) fun _ hcalls => by cases hcalls
  | @poppedEvent m answers event events =>
    refine (h.popped events).dispatched ?_
    have hfits := (s.machine m).dispatch_fits answers event
    rwa [h.machine m] at hfits
  | @called m data answer c calls hthread =>
    have hcalls := h.calls m _ hthread
    refine (h.setThread (by simp) fun calls' hcalls' => ?_).call (hcalls c (List.mem_cons_self ..))
    cases hcalls'
    exact fun c' hc' => hcalls c' (List.mem_cons_of_mem _ hc')
  | @expiredOnce m handler htimer =>
    have hevent := h.timer m _ htimer
    have hset : (s.setTimer m (some ⟨handler, none⟩)).Typed := by
      refine h.setTimer fun timer ht => ?_
      cases ht
      exact hevent
    exact ⟨h.machine, h.created, h.calls, hset.timer,
      List.forall_mem_cons.mpr ⟨hevent, h.handlers⟩, h.slots⟩
  | @expiredRepeated m handler htimer =>
    exact ⟨h.machine, h.created, h.calls, h.timer,
      List.forall_mem_cons.mpr ⟨h.timer m _ htimer, h.handlers⟩, h.slots⟩
  | handled =>
    exact ⟨h.machine, h.created, h.calls, h.timer,
      fun other hother => h.handlers other (List.mem_of_mem_erase hother), h.slots⟩
  | checked hcheck =>
    obtain ⟨-, rfl⟩ := Uart.check_eq_some hcheck
    exact h.withUart fun _ => rfl
  | completed hcomplete =>
    obtain ⟨-, -, -, -, -, -, -, hslots, -⟩ := Uart.complete_eq_some hcomplete
    exact h.withUart hslots
  | calledBack hcomplete =>
    obtain ⟨-, -, -, -, -, -, -, hslots, -⟩ := Uart.complete_eq_some hcomplete
    exact (h.withUart hslots).post _
  | _ => exact ⟨h.machine, h.created, h.calls, h.timer, h.handlers, h.slots⟩

/-- Neither a timer nor a callback posts the event that ends a module. -/
theorem Typed.handler_ne_fsmEnd (h : s.Typed) {handler : Module × Event}
    (hmem : handler ∈ s.handlers) : handler.2 ≠ .fsmEnd := by
  intro hend
  have hevent := h.handlers handler hmem
  rw [hend] at hevent
  cases hm : handler.1 <;> simp [hm, Module.timerEvent] at hevent

theorem Typed.callback_ofUart (h : s.Typed) {n : ℕ} {positive : Bool}
    {uart : Uart (Module × Event)} {cb : Module × Event}
    (hcomplete : s.uart.complete n positive = some (uart, some cb)) : cb.2.OfUart := by
  obtain ⟨entry, -, -, -, -, -, -, -, hcb⟩ := Uart.complete_eq_some hcomplete
  obtain ⟨-, ref, -, hslot⟩ := hcb cb rfl
  exact (h.slots ref cb hslot).2

theorem Typed.callback_ne_fsmEnd (h : s.Typed) {n : ℕ} {positive : Bool}
    {uart : Uart (Module × Event)} {m : Module} {event : Event}
    (hcomplete : s.uart.complete n positive = some (uart, some (m, event))) :
    event ≠ .fsmEnd := by
  rintro rfl
  rcases h.callback_ofUart hcomplete with hevent | hevent <;> cases hevent

end System

end SnipeIt.ActiveObject
