import SnipeIt.ActiveObject.Ending

/-! # Waking up a machine that waits

A machine that waits for its device is woken by the timer that it armed, at the
latest. The handler of the timer posts one event, into a queue that can be full.
-/

namespace SnipeIt.ActiveObject
open Hal Support

/-- The machine waits in a state that its timer ends. -/
def Machine.waiting : Machine → Bool
  | .distance s => s.state = .read
  | .servo s => s = .noiseScan
  | .gps s => s.sensor.state = .read
  | _ => false

/-- The machine has a timer that was initialised. -/
def Machine.live : Machine → Bool
  | .scheduler s => s.state ≠ .error
  | .distance s => s.state ≠ .error
  | .servo s => s ≠ .error
  | .gps s => s.sensor.state ≠ .error
  | _ => false

def Module.wakes : Module → Event → Bool
  | .distance, .timeout => true
  | .distance, .frameReceived => true
  | .servo, .rotationTimeout => true
  | .gps, .timeout => true
  | .gps, .frameReceived => true
  | _, _ => false

namespace System

variable {s t : System} {m k : Module} {act : Act}

/-- The timer of a module is armed, its handler runs, or an event that ends the wait is queued. -/
def Wakeable (s : System) (m : Module) : Prop :=
  (∃ timer ∈ s.timer m, timer.armed ≠ none) ∨ (∃ handler ∈ s.handlers, handler.1 = m) ∨
    ∃ event ∈ (s.queue m).events, m.wakes event = true

instance (s : System) (m : Module) : Decidable (s.Wakeable m) :=
  inferInstanceAs (Decidable (_ ∨ _ ∨ _))

/-- A module whose machine waits and which has no call left to make. -/
def RestsWaiting (s : System) (m : Module) : Prop :=
  s.thread m = .running [] ∧ (s.machine m).waiting = true

instance (s : System) (m : Module) : Decidable (s.RestsWaiting m) :=
  inferInstanceAs (Decidable (_ ∧ _))

/-- Every module that rests in a wait can be woken. -/
def NoneStuck (s : System) : Prop := ∀ m ∈ modules, s.RestsWaiting m → s.Wakeable m

instance (s : System) : Decidable s.NoneStuck := inferInstanceAs (Decidable (∀ _ ∈ _, _))

/-- The timer handler that posts its event. -/
def handlerOf : Act → Option (Module × Event)
  | .handle handler => some handler
  | _ => none

/-- The event of a timer handler of a module that rests in a wait finds room in its queue, or it is
not the last thing that can wake the module. -/
def WakeFits (s : System) (act : Act) : Prop :=
  ∀ handler ∈ handlerOf act, s.RestsWaiting handler.1 →
    (s.queue handler.1).HasRoom ∨
      Wakeable { s with handlers := s.handlers.erase handler } handler.1

/-! ## The machines -/

end System

theorem Machine.init_live {m : Module} (answers : Answers)
    (h : ((Machine.created m).init answers).1.live = true) :
    ∃ handler, .timerInit handler ∈ ((Machine.created m).init answers).2 := by
  obtain ⟨_ | _, valid⟩ := answers
  · cases m <;> cases h
  · cases m with
    | scheduler => exact ⟨.tick, List.mem_cons_self ..⟩
    | distance | gps => exact ⟨.timeout, List.mem_cons_self ..⟩
    | servo => exact ⟨.rotationTimeout, List.mem_cons_self ..⟩
    | broadcaster | temperatureHumidity => cases h

theorem Machine.init_waiting (m : Module) (answers : Answers) :
    ((Machine.created m).init answers).1.waiting = false := by
  obtain ⟨_ | _, valid⟩ := answers <;> cases m <;> rfl

theorem Machine.live_of_waiting {machine : Machine} (h : machine.waiting = true) :
    machine.live = true := by
  cases machine <;> simp_all [Machine.waiting, Machine.live]

/-- The last call of these arms the timer. -/
def Rearms (calls : List Call) : Prop := ∃ before, calls = before ++ [.timerArm .once]

theorem Rearms.cons {calls : List Call} (c : Call) (h : Rearms calls) : Rearms (c :: calls) := by
  obtain ⟨before, rfl⟩ := h
  exact ⟨c :: before, rfl⟩

theorem Rearms.tail {c : Call} {calls : List Call} (h : Rearms (c :: calls)) :
    (c = .timerArm .once ∧ calls = []) ∨ Rearms calls := by
  obtain ⟨before, hbefore⟩ := h
  cases before with
  | nil => exact .inl (List.cons.inj hbefore)
  | cons d before => exact .inr ⟨before, (List.cons.inj hbefore).2⟩

theorem Sensor.enterRead_rearms (device : Device) (s : Sensor) :
    Rearms (s.enterRead device).2 :=
  ⟨[.uartWrite device none, .uartRead device (some .frameReceived)], rfl⟩

theorem Sensor.retryHandler_rearms {device : Device} {s : Sensor}
    (h : (s.retryHandler device).1.state = .read) : Rearms (s.retryHandler device).2 := by
  unfold Sensor.retryHandler at h ⊢
  split_ifs at h ⊢ with hretry
  · exact Sensor.enterRead_rearms device _
  · cases h

/-- A sensor waits after it has armed its timer, or as before when the event does not end the
wait. -/
theorem Sensor.dispatch_rearms {device : Device} {answers : Answers} {event : Event} {s : Sensor}
    (h : (s.dispatch device answers event).1.state = .read) :
    Rearms (s.dispatch device answers event).2 ∨
      ((s.dispatch device answers event).2 = [] ∧ s.state = .read ∧
        event ≠ .timeout ∧ event ≠ .frameReceived) := by
  cases event with
  | read =>
    cases hstate : s.state with
    | idle =>
      left
      simpa [Sensor.dispatch, hstate] using Sensor.enterRead_rearms device s
    | read => simp [Sensor.dispatch, hstate]
    | _ => simp [Sensor.dispatch, hstate] at h
  | frameReceived =>
    cases hstate : s.state with
    | read =>
      left
      simp only [Sensor.dispatch, hstate, Sensor.enterUpdate] at h ⊢
      split_ifs at h ⊢ with hvalid
      · cases h
      · exact (Sensor.retryHandler_rearms h).cons _
    | _ => simp [Sensor.dispatch, hstate] at h
  | timeout =>
    cases hstate : s.state with
    | read =>
      left
      simp only [Sensor.dispatch, hstate] at h ⊢
      exact ((Sensor.retryHandler_rearms h).cons _).cons _
    | _ => simp [Sensor.dispatch, hstate] at h
  | _ => exact .inr ⟨rfl, h, by simp, by simp⟩

theorem ServoState.dispatch_rearms {event : Event} {s : ServoState}
    (h : (s.dispatch event).1 = .noiseScan) :
    Rearms (s.dispatch event).2 ∨
      ((s.dispatch event).2 = [] ∧ s = .noiseScan ∧ event ≠ .rotationTimeout) := by
  unfold ServoState.dispatch at h ⊢
  split at h
  case h_2 => exact .inl ⟨[], rfl⟩
  case h_6 =>
    refine .inr ⟨rfl, h, ?_⟩
    rintro rfl
    simp_all
  all_goals cases h

theorem Gps.dispatch_rearms {answers : Answers} {event : Event} {s : Gps}
    (h : (s.dispatch answers event).1.sensor.state = .read) :
    Rearms (s.dispatch answers event).2 ∨
      ((s.dispatch answers event).2 = [] ∧ s.sensor.state = .read ∧
        event ≠ .timeout ∧ event ≠ .frameReceived) := by
  unfold Gps.dispatch at h ⊢
  split_ifs at h ⊢ with hinit
  · split at h
    · unfold Gps.configured at h
      dsimp only at h
      split_ifs at h
      · simp [hinit] at h
      · cases h
    · simp [hinit] at h
  · exact Sensor.dispatch_rearms h

/-- A machine waits after it has armed its timer, or as before when the event does not end the
wait. -/
theorem Machine.dispatch_rearms {answers : Answers} {event : Event} {machine : Machine}
    (h : (machine.dispatch answers event).1.waiting = true) :
    Rearms (machine.dispatch answers event).2 ∨
      ((machine.dispatch answers event).2 = [] ∧ machine.waiting = true ∧
        machine.module.wakes event = false) := by
  cases machine with
  | scheduler | broadcaster | temperatureHumidity => cases h
  | distance s =>
    refine (Sensor.dispatch_rearms (of_decide_eq_true h)).imp_right fun hsame => ?_
    obtain ⟨hcalls, hstate, htimeout, hframe⟩ := hsame
    refine ⟨hcalls, decide_eq_true hstate, ?_⟩
    cases event <;> simp_all [Machine.module, Module.wakes]
  | servo s =>
    refine (ServoState.dispatch_rearms (of_decide_eq_true h)).imp_right fun hsame => ?_
    obtain ⟨hcalls, hstate, hrotation⟩ := hsame
    refine ⟨hcalls, decide_eq_true hstate, ?_⟩
    cases event <;> simp_all [Machine.module, Module.wakes]
  | gps s =>
    refine (Gps.dispatch_rearms (of_decide_eq_true h)).imp_right fun hsame => ?_
    obtain ⟨hcalls, hstate, htimeout, hframe⟩ := hsame
    refine ⟨hcalls, decide_eq_true hstate, ?_⟩
    cases event <;> simp_all [Machine.module, Module.wakes]

theorem Sensor.dispatch_error {device : Device} {answers : Answers} {event : Event} {s : Sensor}
    (h : s.state = .error) : (s.dispatch device answers event).1.state = .error := by
  cases event <;> simp [Sensor.dispatch, h]

/-- An event does not bring back a machine whose initialisation failed. -/
theorem Machine.live_of_dispatch {answers : Answers} {event : Event} {machine : Machine}
    (h : (machine.dispatch answers event).1.live = true) : machine.live = true := by
  by_contra hdead
  cases machine with
  | scheduler s =>
    have hstate : s.state = .error := by simpa [Machine.live] using hdead
    have hstays : (s.dispatch event).1.state = .error := by
      cases event <;> simp [Scheduler.dispatch, hstate]
    simp [Machine.dispatch, Machine.live, hstays] at h
  | distance s =>
    have hstate : s.state = .error := by simpa [Machine.live] using hdead
    have hstays : (s.dispatch Distance.device answers event).1.state = .error :=
      Sensor.dispatch_error hstate
    simp [Machine.dispatch, Machine.live, Distance.dispatch, hstays] at h
  | servo s =>
    have hstate : s = .error := by simpa [Machine.live] using hdead
    subst hstate
    cases h
  | gps s =>
    have hstate : s.sensor.state = .error := by simpa [Machine.live] using hdead
    have hstays : (s.sensor.dispatch Gps.device answers event).1.state = .error :=
      Sensor.dispatch_error hstate
    simp [Machine.dispatch, Machine.live, Gps.dispatch, hstate, hstays] at h
  | broadcaster | temperatureHumidity => cases h

theorem Module.wakes_timerEvent {machine : Machine} {event : Event}
    (h : machine.waiting = true) (hevent : machine.module.timerEvent = some event) :
    machine.module.wakes event = true := by
  cases machine <;> simp_all [Machine.waiting, Machine.module, Module.timerEvent] <;>
    subst hevent <;> rfl

namespace System

variable {s t : System} {m k : Module} {act : Act}

/-! ## One module -/

/-- What can wake a module is not taken away from it. -/
structure Keeps (s t : System) (m : Module) : Prop where
  machine : t.machine m = s.machine m
  thread : t.thread m = s.thread m
  timer : t.timer m = s.timer m
  handlers : ∀ handler ∈ s.handlers, handler.1 = m → handler ∈ t.handlers
  events : ∀ event ∈ (s.queue m).events, event ∈ (t.queue m).events

/-- A module whose machine is live has its timer, and when it waits it can be woken, unless it has
still to arm the timer. -/
structure Waker (s : System) (m : Module) : Prop where
  timed : ∀ calls, s.thread m = .running calls → (s.machine m).live = true →
    (s.timer m).isSome = true ∨ ∃ handler, .timerInit handler ∈ calls
  waits : ∀ calls, s.thread m = .running calls → (s.machine m).waiting = true →
    Rearms calls ∨ (calls = [] ∧ s.Wakeable m)

theorem Wakeable.keep (h : s.Wakeable m) (hkeeps : Keeps s t m) : t.Wakeable m := by
  rcases h with ⟨timer, htimer, harmed⟩ | ⟨handler, hmem, hm⟩ | ⟨event, hmem, hwakes⟩
  · exact .inl ⟨timer, hkeeps.timer ▸ htimer, harmed⟩
  · exact .inr (.inl ⟨handler, hkeeps.handlers handler hmem hm, hm⟩)
  · exact .inr (.inr ⟨event, hkeeps.events event hmem, hwakes⟩)

theorem Waker.keep (h : s.Waker m) (hkeeps : Keeps s t m) : t.Waker m := by
  refine ⟨fun calls hcalls hlive => ?_, fun calls hcalls hwaiting => ?_⟩
  · rw [hkeeps.timer]
    exact h.timed calls (hkeeps.thread ▸ hcalls) (hkeeps.machine ▸ hlive)
  · exact (h.waits calls (hkeeps.thread ▸ hcalls) (hkeeps.machine ▸ hwaiting)).imp_right
      (And.imp_right (·.keep hkeeps))

/-- A module whose thread has not started, or has left its loop, does not wait. -/
theorem Waker.of_idle (h : ∀ calls, s.thread m ≠ .running calls) : s.Waker m :=
  ⟨fun calls hcalls => absurd hcalls (h calls), fun calls hcalls => absurd hcalls (h calls)⟩

theorem post_keeps (s : System) (m k : Module) (event : Event) : Keeps s (s.post m event) k := by
  refine ⟨rfl, rfl, rfl, fun _ h _ => h, fun e he => ?_⟩
  by_cases hk : k = m
  · subst hk
    simp only [post, Function.update_self, Queue.push]
    split_ifs
    · exact List.mem_append_left _ he
    · exact he
  · simpa [post, hk] using he

theorem publish_keeps (s : System) (ao k : Module) (event : Event) :
    Keeps s (s.publish ao event) k := by
  rcases publish_eq s ao event with h | h <;> rw [h]
  · exact ⟨rfl, rfl, rfl, fun _ h _ => h, fun _ h => h⟩
  · exact post_keeps s ao k event

theorem setThread_keeps {thread : Thread} (hk : k ≠ m) : Keeps s (s.setThread m thread) k :=
  ⟨rfl, by simp [setThread, hk], rfl, fun _ h _ => h, fun _ h => h⟩

theorem setTimer_keeps {timer : Option Timer} (hk : k ≠ m) : Keeps s (s.setTimer m timer) k :=
  ⟨rfl, rfl, by simp [setTimer, hk], fun _ h _ => h, fun _ h => h⟩

theorem dispatched_keeps {result : Machine × List Call} (hk : k ≠ m) :
    Keeps s (s.dispatched m result) k :=
  ⟨by simp [dispatched, hk], by simp [dispatched, hk], rfl, fun _ h _ => h, fun _ h => h⟩

theorem popped_keeps {events : List Event} (hk : k ≠ m) : Keeps s (s.popped m events) k :=
  ⟨rfl, rfl, rfl, fun _ h _ => h, fun _ h => by simpa [popped, hk] using h⟩

theorem call_keeps {data : Option SlotRef} {answer : Submission} {c : Call} (hk : k ≠ m) :
    Keeps s (s.call m data answer c) k := by
  cases c with
  | timerInit | timerArm | timerDisarm => exact setTimer_keeps hk
  | uartWrite | uartRead | uartAbort => exact ⟨rfl, rfl, rfl, fun _ h _ => h, fun _ h => h⟩
  | publish ao event => exact publish_keeps s ao k event

theorem Keeps.trans {u : System} (h : Keeps s t m) (h' : Keeps t u m) : Keeps s u m where
  machine := h'.machine.trans h.machine
  thread := h'.thread.trans h.thread
  timer := h'.timer.trans h.timer
  handlers handler hmem hm := h'.handlers handler (h.handlers handler hmem hm) hm
  events event hmem := h'.events event (h.events event hmem)

/-! ## One step -/

theorem Waker.started (htyped : s.Typed) {answers : Answers} (hthread : s.thread m = .created) :
    (s.dispatched m ((s.machine m).init answers)).Waker m := by
  rw [htyped.created m hthread]
  refine ⟨fun calls hcalls hlive => ?_, fun calls hcalls hwaiting => ?_⟩
  · simp only [dispatched, Function.update_self, Thread.running.injEq] at hcalls hlive
    exact .inr (hcalls ▸ Machine.init_live answers hlive)
  · simp [dispatched, Machine.init_waiting] at hwaiting

theorem Waker.poppedEvent (h : s.Waker m) (htyped : s.Typed) {answers : Answers} {event : Event}
    {events : List Event} (hthread : s.thread m = .running [])
    (hevents : (s.queue m).events = event :: events) :
    ((s.popped m events).dispatched m ((s.machine m).dispatch answers event)).Waker m := by
  refine ⟨fun calls hcalls hlive => ?_, fun calls hcalls hwaiting => ?_⟩
  · simp only [dispatched, Function.update_self] at hlive
    left
    simpa [dispatched, popped] using h.timed [] hthread (Machine.live_of_dispatch hlive)
  · simp only [dispatched, Function.update_self, Thread.running.injEq] at hcalls hwaiting
    subst hcalls
    refine (Machine.dispatch_rearms hwaiting).imp_right fun hsame => ?_
    obtain ⟨hcalls, hwaits, hwakes⟩ := hsame
    refine ⟨hcalls, ?_⟩
    -- the event that was taken is not one that ends the wait
    have hwakeable : s.Wakeable m := by
      simpa [Rearms] using h.waits [] hthread hwaits
    rw [htyped.machine m] at hwakes
    refine hwakeable.imp_right (Or.imp_right ?_)
    rintro ⟨e, he, hewakes⟩
    refine ⟨e, ?_, hewakes⟩
    rw [hevents] at he
    rcases List.mem_cons.mp he with rfl | hrest
    · rw [hwakes] at hewakes
      cases hewakes
    · simpa [popped, dispatched] using hrest

/-- A module that has a timer keeps it over its calls. -/
theorem Waker.called_timed (h : s.Waker m) {data : Option SlotRef} {answer : Submission}
    {c : Call} {calls : List Call} (hthread : s.thread m = .running (c :: calls))
    (hlive : (s.machine m).live = true) :
    (((s.setThread m (.running calls)).call m data answer c).timer m).isSome = true ∨
      ∃ handler, .timerInit handler ∈ calls := by
  rcases h.timed _ hthread hlive with hsome | ⟨handler, hinit⟩
  · left
    cases c with
    | timerInit => simp [call, setTimer]
    | _ => simpa [call, setTimer, setThread] using hsome
  · rcases List.mem_cons.mp hinit with rfl | hlater
    · simp [call, setTimer]
    · exact .inr ⟨handler, hlater⟩

theorem Waker.called (h : s.Waker m) {data : Option SlotRef} {answer : Submission} {c : Call}
    {calls : List Call} (hthread : s.thread m = .running (c :: calls)) :
    ((s.setThread m (.running calls)).call m data answer c).Waker m := by
  refine ⟨fun calls' hcalls' hlive => ?_, fun calls' hcalls' hwaiting => ?_⟩
  · simp only [call_thread, setThread, Function.update_self, Thread.running.injEq] at hcalls'
    rw [call_machine] at hlive
    exact hcalls' ▸ h.called_timed hthread hlive
  · simp only [call_thread, setThread, Function.update_self, Thread.running.injEq] at hcalls'
    rw [call_machine] at hwaiting
    subst hcalls'
    rcases h.waits _ hthread hwaiting with hrearms | ⟨hnil, -⟩
    · rcases hrearms.tail with ⟨rfl, rfl⟩ | hlater
      · refine .inr ⟨rfl, .inl ?_⟩
        have hsome := h.timed _ hthread (Machine.live_of_waiting hwaiting)
        obtain ⟨timer, htimer⟩ : ∃ timer, s.timer m = some timer := by
          simpa [Option.isSome_iff_exists] using hsome
        exact ⟨{ timer with armed := some .once }, by simp [call, setTimer, setThread, htimer],
          by simp⟩
      · exact .inl hlater
    · cases hnil

theorem Waker.expiredOnce (h : s.Waker m) (handler : Event) :
    Waker { s.setTimer m (some ⟨handler, none⟩) with
      handlers := (m, handler) :: s.handlers } m := by
  refine ⟨fun calls _ _ => .inl (by simp [setTimer]), fun calls hcalls hwaiting => ?_⟩
  exact (h.waits calls hcalls hwaiting).imp_right fun hrests =>
    ⟨hrests.1, .inr (.inl ⟨(m, handler), List.mem_cons_self .., rfl⟩)⟩

/-- The handler of a timer wakes the module that waits for it when its event fits. -/
theorem Waker.handled (h : s.Waker m) (htyped : s.Typed) {event : Event}
    (hmem : (m, event) ∈ s.handlers) (hfits : s.WakeFits (.handle (m, event))) :
    (({ s with handlers := s.handlers.erase (m, event) } : System).post m event).Waker m := by
  refine ⟨h.timed, fun calls hcalls hwaiting => ?_⟩
  refine (h.waits calls hcalls hwaiting).imp_right fun hrests => ⟨hrests.1, ?_⟩
  have hrests' : s.RestsWaiting m := ⟨hrests.1 ▸ hcalls, hwaiting⟩
  rcases hfits (m, event) rfl hrests' with hroom | hother
  · refine .inr (.inr ⟨event, ?_, ?_⟩)
    · simp only [post, Function.update_self, Queue.push, if_pos hroom]
      exact List.mem_append_right _ (List.mem_singleton_self event)
    · have hevent := htyped.handlers _ hmem
      rw [← htyped.machine m] at hevent ⊢
      exact Module.wakes_timerEvent hwaiting hevent
  · exact hother.keep (post_keeps _ _ _ _)

structure WakeOrder (s : System) : Prop where
  ordered : s.Ordered
  typed : s.Typed
  waker : ∀ m, s.Waker m

theorem init_wakeOrder : WakeOrder init where
  ordered := init_ordered
  typed := init_typed
  waker _ := Waker.of_idle fun _ h => by cases h

theorem WakeOrder.noneStuck (h : s.WakeOrder) : s.NoneStuck := by
  intro m _ hrests
  simpa [Rearms] using (h.waker m).waits [] hrests.1 hrests.2

theorem Waker.step (h : s.WakeOrder) (hstep : Step s act t) (hfits : s.WakeFits act) (k : Module) :
    t.Waker k := by
  have hk := h.waker k
  cases step_effect hstep with
  | published => exact hk.keep (post_keeps ..)
  | @endPosted m rest | @endRefused m rest =>
    have hkeeps := post_keeps s m k .fsmEnd
    exact hk.keep ⟨rfl, rfl, rfl, hkeeps.handlers, hkeeps.events⟩
  | @joined m rest =>
    by_cases hm : k = m
    · subst hm
      exact Waker.of_idle fun calls hcalls => by simp [setThread] at hcalls
    · have hkeeps : Keeps s (s.setThread m .joined) k := setThread_keeps hm
      exact hk.keep ⟨rfl, hkeeps.thread, rfl, hkeeps.handlers, hkeeps.events⟩
  | @deleted d rest hphase =>
    refine Waker.of_idle fun calls hcalls => ?_
    have hjoined := h.ordered.joined k (by simp [hphase, Phase.unjoined])
    cases d <;> simp [deleteStep, setTimer, hjoined] at hcalls
  | @started m answers hthread =>
    by_cases hm : k = m
    · subst hm
      exact Waker.started h.typed hthread
    · exact hk.keep (dispatched_keeps hm)
  | @poppedEnd m answers events =>
    by_cases hm : k = m
    · subst hm
      exact Waker.of_idle fun calls hcalls => by simp [setThread] at hcalls
    · exact hk.keep ((popped_keeps hm).trans (setThread_keeps hm))
  | @poppedEvent m answers event events hthread hevents =>
    by_cases hm : k = m
    · subst hm
      exact hk.poppedEvent h.typed hthread hevents
    · exact hk.keep ((popped_keeps hm).trans (dispatched_keeps hm))
  | @called m data answer c calls hthread =>
    by_cases hm : k = m
    · subst hm
      exact hk.called hthread
    · exact hk.keep ((setThread_keeps hm).trans (call_keeps hm))
  | @expiredOnce m handler htimer =>
    by_cases hm : k = m
    · subst hm
      exact hk.expiredOnce handler
    · have hkeeps : Keeps s (s.setTimer m (some ⟨handler, none⟩)) k := setTimer_keeps hm
      exact hk.keep ⟨rfl, rfl, hkeeps.timer, fun _ hmem _ => List.mem_cons_of_mem _ hmem,
        hkeeps.events⟩
  | expiredRepeated =>
    exact hk.keep ⟨rfl, rfl, rfl, fun _ hmem _ => List.mem_cons_of_mem _ hmem, fun _ he => he⟩
  | @handled handler hmem =>
    by_cases hm : k = handler.1
    · subst hm
      exact hk.handled h.typed hmem hfits
    · refine (hk.keep ?_ : Waker { s with handlers := s.handlers.erase handler } k).keep
        (post_keeps ..)
      refine ⟨rfl, rfl, rfl, fun other hother hother' => ?_, fun _ he => he⟩
      refine (List.mem_erase_of_ne ?_).mpr hother
      rintro rfl
      exact hm hother'.symm
  | @calledBack n positive uart m event =>
    have hkeeps := post_keeps { s with uart } m k event
    exact hk.keep ⟨rfl, rfl, rfl, hkeeps.handlers, hkeeps.events⟩
  | _ => exact hk.keep ⟨rfl, rfl, rfl, fun _ hmem _ => hmem, fun _ he => he⟩

theorem WakeOrder.step (h : s.WakeOrder) (hstep : Step s act t) (hfits : s.WakeFits act) :
    t.WakeOrder :=
  ⟨(step_keeps h.ordered hstep).1, h.typed.step hstep, Waker.step h hstep hfits⟩

/-- A module whose last wake-up is refused rests in its wait with nothing to wake it. -/
theorem not_noneStuck_of_refused (hstep : Step s act t) (hfits : ¬ s.WakeFits act) :
    ¬ t.NoneStuck := by
  simp only [WakeFits, not_forall, not_or] at hfits
  obtain ⟨handler, hact, hrests, hroom, hwakeable⟩ := hfits
  cases step_effect hstep with
  | handled =>
    cases hact
    intro hnone
    have hsame : (({ s with handlers := s.handlers.erase handler } : System).post handler.1
        handler.2).queue = s.queue := by
      funext k
      by_cases hk : k = handler.1
      · subst hk
        simp [post, Queue.push, hroom]
      · simp [post, hk]
    have hwoken := hnone handler.1 (mem_modules _) hrests
    unfold Wakeable at hwoken
    rw [hsame] at hwoken
    exact hwakeable hwoken
  | _ => cases hact

end System

/-- Waiting: in every state of a run a module that rests in a wait has something left that can wake
it exactly when no step of the run drops the last such event into a full queue. -/
theorem waits_are_woken_iff {acts : List Act} {s : System} :
    Run (Into System.NoneStuck System.Step) System.init acts s ↔
      Run (Guarded System.WakeFits System.Step) System.init acts s :=
  Run.into_iff_guarded System.init_wakeOrder
    (fun _ _ _ horder hstep hfits =>
      ⟨horder.step hstep hfits, (horder.step hstep hfits).noneStuck⟩)
    (fun _ _ _ _ hstep hfits => System.not_noneStuck_of_refused hstep hfits)

/-- The distance machine waits for a frame that the driver refused to read. Four more events fill
its queue before its timer expires, and it ignores them. -/
def wakeUpDropped : List Act :=
  begin .distance 1 ++ [.publish .distance .read, .threadPop .distance .good,
    .threadCall .distance none .done, .threadCall .distance none .noEntry,
    .threadCall .distance none .done] ++
  List.replicate 4 (.publish .distance .read) ++
  [.expire .distance, .handle (.distance, .timeout)] ++
  (List.replicate 4 (turn .distance 0)).flatten

theorem stuck_in_read :
    ∃ s, Run System.Step System.init wakeUpDropped s ∧ ¬ s.NoneStuck ∧
      s.RestsWaiting .distance ∧ (s.queue .distance).events = [] := by
  have hstuck : ((System.init.exec (fun _ _ => true) wakeUpDropped).map fun s =>
      decide (¬ s.NoneStuck ∧ s.RestsWaiting .distance ∧ (s.queue .distance).events = [])) =
      some true := by decide
  obtain ⟨s, hexec, hall⟩ := Option.map_eq_some_iff.mp hstuck
  exact ⟨s, (System.run_of_exec hexec).of_guarded, of_decide_eq_true hall⟩

end SnipeIt.ActiveObject
