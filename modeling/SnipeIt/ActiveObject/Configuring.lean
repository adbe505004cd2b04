import SnipeIt.ActiveObject.WakeUp

/-! # The configuration of the GPS

The GPS machine sends its configuration one write at a time. Each write is sent
from the event that the completion of the one before has posted, and nothing
else brings the machine on.
-/

namespace SnipeIt.ActiveObject
open Hal Support

/-- The GPS machine still sends its configuration. -/
def Machine.configuring : Machine → Bool
  | .gps s => s.sensor.state = .init
  | _ => false

def configWrite : Call := .uartWrite Gps.device (some .configured)

namespace System

variable {s t : System} {m : Module} {act : Act}

/-- The callback of an entry is `config_step_done_handler`. -/
def IsConfigWrite (s : System) (entry : Entry) : Prop :=
  entry.transfer = true ∧ ∃ ref ∈ entry.data, (s.uart.slots ref).callback = some (.gps, .configured)

instance (s : System) (entry : Entry) : Decidable (s.IsConfigWrite entry) :=
  inferInstanceAs (Decidable (_ ∧ _))

/-- A configuration write is in flight, or the event of its completion is queued. -/
def ConfigLeft (s : System) : Prop :=
  (∃ entry ∈ s.uart.inflight, s.IsConfigWrite entry) ∨ .configured ∈ (s.queue .gps).events

instance (s : System) : Decidable s.ConfigLeft := inferInstanceAs (Decidable (_ ∨ _))

/-- The GPS machine rests in its initial state, its timer initialised. -/
def ConfigRests (s : System) : Prop :=
  s.thread .gps = .running [] ∧ (s.machine .gps).configuring = true

instance (s : System) : Decidable s.ConfigRests := inferInstanceAs (Decidable (_ ∧ _))

/-- Where the GPS machine rests in its initial state its configuration goes on. -/
def NotStalled (s : System) : Prop := s.ConfigRests → s.ConfigLeft

instance (s : System) : Decidable s.NotStalled := inferInstanceAs (Decidable (_ → _))

/-- A configuration write is submitted, completes with a positive count, and the event of its
completion finds room. -/
def ConfigFits (s : System) : Act → Prop
  | .threadCall m _ answer =>
    m = .gps → (s.machine .gps).configuring = true →
      ∀ calls, s.thread .gps = .running (configWrite :: calls) →
        (s.uart.allocateSlot Gps.device).isSome = true ∧ answer = .done
  | .uartComplete n positive =>
    s.ConfigRests → ∀ entry, s.uart.inflight[n]? = some entry → s.IsConfigWrite entry →
      positive = true ∧ (s.queue .gps).HasRoom
  | _ => True

end System

theorem Machine.init_configuring {answers : Answers}
    (h : ((Machine.created .gps).init answers).1.configuring = true) :
    ((Machine.created .gps).init answers).2 = [.timerInit .timeout, configWrite] := by
  obtain ⟨_ | _, valid⟩ := answers
  · cases h
  · rfl

/-- The configuration goes on with its next write, on the event of the write before only. -/
theorem Machine.dispatch_configuring {machine : Machine} {answers : Answers} {event : Event}
    (h : (machine.dispatch answers event).1.configuring = true) :
    machine.configuring = true ∧
      (machine.dispatch answers event).2 = if event = .configured then [configWrite] else [] := by
  cases machine with
  | gps s =>
    have hstate : (s.dispatch answers event).1.sensor.state = .init := of_decide_eq_true h
    by_cases hinit : s.sensor.state = .init
    · refine ⟨decide_eq_true hinit, ?_⟩
      simp only [Gps.dispatch, if_pos hinit] at hstate
      simp only [Machine.dispatch, Gps.dispatch, if_pos hinit]
      cases event with
      | configured =>
        simp only [Gps.configured] at hstate ⊢
        split_ifs at hstate ⊢
        · rfl
        · cases hstate
      | _ => rfl
    · simp only [Gps.dispatch, if_neg hinit] at hstate
      exact absurd hstate (Sensor.dispatch_ne_init hinit)
  | _ => cases h

namespace System

variable {s t : System} {m : Module} {act : Act}

/-! ## One write at a time -/

/-- How many events of completed configuration writes are queued. -/
def confirmed (s : System) : ℕ := (s.queue .gps).events.count .configured

/-- The next configuration write is still to be made. -/
def WritePending (calls : List Call) : Prop :=
  calls = [.timerInit .timeout, configWrite] ∨ calls = [configWrite]

/-- Exactly one of these is left: a configuration write to be made, one in flight, or the event of
its completion. -/
structure OneWrite (s : System) (calls : List Call) : Prop where
  prepared : s.uart.preparedFor Gps.device = 0
  callback : ∀ entry ∈ s.uart.inflight, entry.isFor Gps.device = true →
    ∀ ref ∈ entry.data, (s.uart.slots ref).callback = some (.gps, .configured)
  one : (WritePending calls ∧ s.uart.inflightFor Gps.device = 0 ∧ s.confirmed = 0) ∨
    (calls = [] ∧ s.uart.inflightFor Gps.device + s.confirmed = 1)

/-- The configuration goes on as long as the GPS machine is in its initial state. -/
structure ConfigOrder (s : System) : Prop where
  typed : s.Typed
  fresh : s.thread .gps = .created → s.uart.preparedFor Gps.device = 0 ∧
    s.uart.inflightFor Gps.device = 0 ∧ s.confirmed = 0
  going : ∀ calls, s.thread .gps = .running calls → (s.machine .gps).configuring = true →
    s.OneWrite calls

theorem init_configOrder : ConfigOrder init where
  typed := init_typed
  fresh _ := ⟨rfl, rfl, rfl⟩
  going _ h := by cases h

theorem isFor_of_isConfigWrite (htyped : s.Typed) {entry : Entry} (h : s.IsConfigWrite entry) :
    entry.isFor Gps.device = true := by
  obtain ⟨htransfer, ref, href, hcallback⟩ := h
  obtain ⟨hdevice, -⟩ := htyped.slots ref _ hcallback
  rw [Option.mem_def] at href
  have href' : ref.1 = Gps.device := (Option.some.inj hdevice).symm
  simp [Entry.isFor, htransfer, href, href']

theorem OneWrite.isConfigWrite {calls : List Call} (h : s.OneWrite calls) {entry : Entry}
    (hmem : entry ∈ s.uart.inflight) (hfor : entry.isFor Gps.device = true) :
    s.IsConfigWrite entry := by
  obtain ⟨htransfer, hdata⟩ := Bool.and_eq_true_iff.mp hfor
  obtain ⟨ref, href, -⟩ := (Option.any_eq_true _ _).mp hdata
  exact ⟨htransfer, ref, href, h.callback entry hmem hfor ref href⟩

theorem ConfigOrder.notStalled (h : s.ConfigOrder) : s.NotStalled := by
  rintro ⟨hthread, hconfiguring⟩
  have hgoing := h.going [] hthread hconfiguring
  rcases hgoing.one with ⟨hpending, -⟩ | ⟨-, hone⟩
  · simp [WritePending] at hpending
  · by_cases hqueued : s.confirmed = 0
    · have hinflight : 0 < s.uart.inflightFor Gps.device := by omega
      obtain ⟨entry, hmem, hfor⟩ := List.countP_pos_iff.mp hinflight
      exact .inl ⟨entry, hmem, hgoing.isConfigWrite hmem hfor⟩
    · exact .inr (List.count_pos_iff.mp (Nat.pos_of_ne_zero hqueued))

/-- Without a transfer in flight and without an event the configuration has stalled. -/
theorem not_configLeft (htyped : s.Typed) (hinflight : s.uart.inflightFor Gps.device = 0)
    (hconfirmed : s.confirmed = 0) : ¬ s.ConfigLeft := by
  rintro (⟨entry, hmem, hwrite⟩ | hqueued)
  · exact List.countP_eq_zero.mp hinflight entry hmem (isFor_of_isConfigWrite htyped hwrite)
  · exact List.count_eq_zero.mp hconfirmed hqueued

/-! ## What leaves the configuration alone -/

structure ConfigSame (s t : System) : Prop where
  machine : t.machine .gps = s.machine .gps
  thread : t.thread .gps = s.thread .gps
  confirmed : t.confirmed = s.confirmed
  uart : s.uart.preparedFor Gps.device = 0 → Uart.SameFor s.uart t.uart Gps.device

theorem ConfigOrder.same (h : s.ConfigOrder) (htyped : t.Typed) (hsame : ConfigSame s t) :
    t.ConfigOrder := by
  refine ⟨htyped, fun hcreated => ?_, fun calls hcalls hconfiguring => ?_⟩
  · obtain ⟨hprepared, hinflight, hconfirmed⟩ := h.fresh (hsame.thread ▸ hcreated)
    have huart := hsame.uart hprepared
    exact ⟨huart.prepared, huart.inflight.trans hinflight, hsame.confirmed.trans hconfirmed⟩
  · obtain ⟨hprepared, hcallback, hone⟩ :=
      h.going calls (hsame.thread ▸ hcalls) (hsame.machine ▸ hconfiguring)
    have huart := hsame.uart hprepared
    refine ⟨huart.prepared, fun entry hmem hfor ref href => ?_, ?_⟩
    · have hdevice : ref.1 = Gps.device := by
        rw [Option.mem_def] at href
        simpa [Entry.isFor, href] using (Bool.and_eq_true_iff.mp hfor).2
      rw [huart.callback ref hdevice]
      exact hcallback entry (huart.entries entry hmem hfor) hfor ref href
    · rw [huart.inflight, hsame.confirmed]
      exact hone

/-- A GPS thread that has left its loop has no configuration to go on with. -/
theorem ConfigOrder.of_ended (htyped : t.Typed) (hcreated : t.thread .gps ≠ .created)
    (hrunning : ∀ calls, t.thread .gps ≠ .running calls) : t.ConfigOrder :=
  ⟨htyped, fun h => absurd h hcreated, fun calls h => absurd h (hrunning calls)⟩

theorem confirmed_post {event : Event} (h : m = .gps → event ≠ .configured) :
    (s.post m event).confirmed = s.confirmed := by
  by_cases hm : m = .gps
  · subst hm
    simp only [confirmed, post, Function.update_self, Queue.push]
    split_ifs
    · simp [List.count_append, h rfl]
    · rfl
  · simp [confirmed, post, Ne.symm hm]

theorem post_configSame {event : Event} (h : m = .gps → event ≠ .configured) :
    ConfigSame s (s.post m event) :=
  ⟨rfl, rfl, confirmed_post h, fun hprepared => .refl hprepared⟩

theorem publish_configSame (s : System) (ao : Module) (event : Event) :
    ConfigSame s (s.publish ao event) := by
  unfold publish
  split_ifs with hsub
  · refine post_configSame fun hm hevent => ?_
    subst hm hevent
    simp [subscribed] at hsub
  · exact ⟨rfl, rfl, rfl, fun hprepared => .refl hprepared⟩

theorem ConfigSame.trans {u : System} (h : ConfigSame s t) (h' : ConfigSame t u) :
    ConfigSame s u := by
  refine ⟨h'.machine.trans h.machine, h'.thread.trans h.thread, h'.confirmed.trans h.confirmed,
    fun hprepared => ?_⟩
  have h1 := h.uart hprepared
  have h2 := h'.uart h1.prepared
  exact ⟨h2.prepared, h2.inflight.trans h1.inflight,
    fun entry hmem hfor => h1.entries entry (h2.entries entry hmem hfor) hfor,
    fun ref href => (h2.callback ref href).trans (h1.callback ref href)⟩

theorem setThread_configSame {thread : Thread} (hm : m ≠ .gps) :
    ConfigSame s (s.setThread m thread) :=
  ⟨rfl, by simp [setThread, Ne.symm hm], rfl, fun hprepared => .refl hprepared⟩

theorem dispatched_configSame {result : Machine × List Call} (hm : m ≠ .gps) :
    ConfigSame s (s.dispatched m result) :=
  ⟨by simp [dispatched, Ne.symm hm], by simp [dispatched, Ne.symm hm], rfl,
    fun hprepared => .refl hprepared⟩

theorem popped_configSame {events : List Event} (hm : m ≠ .gps) :
    ConfigSame s (s.popped m events) :=
  ⟨rfl, rfl, by simp [confirmed, popped, Ne.symm hm], fun hprepared => .refl hprepared⟩

theorem device_ne (hm : m ≠ .gps) {device : Device} (h : m.device = some device) :
    device ≠ Gps.device := by
  rintro rfl
  cases m <;> simp [Module.device, Distance.device, Gps.device] at h hm

theorem call_configSame (hm : m ≠ .gps) {data : Option SlotRef} {answer : Submission} {c : Call}
    (hc : c.Of m) : ConfigSame s (s.call m data answer c) := by
  cases c with
  | timerInit | timerArm | timerDisarm => exact ⟨rfl, rfl, rfl, fun hprepared => .refl hprepared⟩
  | uartWrite | uartRead =>
    exact ⟨rfl, rfl, rfl, fun hprepared => .transfer (device_ne hm hc.1) hprepared⟩
  | uartAbort => exact ⟨rfl, rfl, rfl, fun hprepared => .enqueue rfl hprepared⟩
  | publish ao event => exact publish_configSame s ao event

/-! ## One step -/

theorem ConfigOrder.started (h : s.ConfigOrder) {answers : Answers}
    (hthread : s.thread .gps = .created)
    (htyped : (s.dispatched .gps ((s.machine .gps).init answers)).Typed) :
    (s.dispatched .gps ((s.machine .gps).init answers)).ConfigOrder := by
  obtain ⟨hprepared, hinflight, hconfirmed⟩ := h.fresh hthread
  refine ⟨htyped, fun hcreated => ?_, fun calls hcalls hconfiguring => ?_⟩
  · simp [dispatched] at hcreated
  · rw [h.typed.created .gps hthread] at hcalls hconfiguring ⊢
    simp only [dispatched, Function.update_self, Thread.running.injEq] at hcalls hconfiguring
    refine ⟨hprepared, fun entry hmem hfor => ?_, .inl ⟨.inl ?_, hinflight, hconfirmed⟩⟩
    · exact absurd hfor (List.countP_eq_zero.mp hinflight entry hmem)
    · rw [← hcalls, Machine.init_configuring hconfiguring]

theorem ConfigOrder.poppedEvent (h : s.ConfigOrder) {answers : Answers} {event : Event}
    {events : List Event} (hthread : s.thread .gps = .running [])
    (hevents : (s.queue .gps).events = event :: events)
    (htyped : ((s.popped .gps events).dispatched .gps
      ((s.machine .gps).dispatch answers event)).Typed) :
    ((s.popped .gps events).dispatched .gps
      ((s.machine .gps).dispatch answers event)).ConfigOrder := by
  refine ⟨htyped, fun hcreated => ?_, fun calls hcalls hconfiguring => ?_⟩
  · simp [dispatched] at hcreated
  · simp only [dispatched, Function.update_self, Thread.running.injEq] at hcalls hconfiguring
    obtain ⟨hbefore, hwrite⟩ := Machine.dispatch_configuring hconfiguring
    obtain ⟨hprepared, hcallback, hone⟩ := h.going [] hthread hbefore
    refine ⟨hprepared, hcallback, ?_⟩
    have hone' : s.uart.inflightFor Gps.device + s.confirmed = 1 := by
      simpa [WritePending] using hone
    have hcount :
        s.confirmed = events.count .configured + if event = .configured then 1 else 0 := by
      simp [confirmed, hevents, List.count_cons]
    have hrest : ((s.popped .gps events).dispatched .gps
        ((s.machine .gps).dispatch answers event)).confirmed = events.count .configured := by
      simp [confirmed, popped, dispatched]
    rw [hrest, ← hcalls, hwrite]
    change _ ∧ s.uart.inflightFor Gps.device = 0 ∧ _ ∨
      _ ∧ s.uart.inflightFor Gps.device + _ = 1
    split_ifs at hcount ⊢ with hconfigured
    · exact .inl ⟨.inr rfl, by omega, by omega⟩
    · exact .inr ⟨rfl, by omega⟩

theorem WritePending.cons {c : Call} {calls : List Call} (h : WritePending (c :: calls)) :
    (c = .timerInit .timeout ∧ calls = [configWrite]) ∨ (c = configWrite ∧ calls = []) := by
  rcases h with h | h
  · exact .inl (List.cons.inj h)
  · exact .inr (List.cons.inj h)

theorem ConfigOrder.called (h : s.ConfigOrder) {data : Option SlotRef} {answer : Submission}
    {c : Call} {calls : List Call} (hthread : s.thread .gps = .running (c :: calls))
    (hfits : s.ConfigFits (.threadCall .gps data answer))
    (htyped : ((s.setThread .gps (.running calls)).call .gps data answer c).Typed) :
    ((s.setThread .gps (.running calls)).call .gps data answer c).ConfigOrder := by
  refine ⟨htyped, fun hcreated => ?_, fun calls' hcalls' hconfiguring => ?_⟩
  · simp [setThread] at hcreated
  · simp only [call_thread, setThread, Function.update_self, Thread.running.injEq] at hcalls'
    rw [call_machine] at hconfiguring
    subst hcalls'
    obtain ⟨hprepared, hcallback, hone⟩ := h.going _ hthread hconfiguring
    rcases hone with ⟨hpending, hinflight, hconfirmed⟩ | ⟨hnil, -⟩
    swap
    · cases hnil
    rcases hpending.cons with ⟨rfl, rfl⟩ | ⟨rfl, rfl⟩
    · exact ⟨hprepared, hcallback, .inl ⟨.inr rfl, hinflight, hconfirmed⟩⟩
    · obtain ⟨hslot, rfl⟩ := hfits rfl hconfiguring [] hthread
      obtain ⟨hone, hnone, hslots⟩ := @Uart.transfer_done _ s.uart Gps.device
        (some (Module.gps, Event.configured)) hslot hprepared hinflight
      refine ⟨hnone, hslots, .inr ⟨rfl, ?_⟩⟩
      have hsum : s.confirmed = 0 → 1 + s.confirmed = 1 := by omega
      exact hone ▸ hsum hconfirmed

theorem complete_gps (htyped : s.Typed) {n : ℕ} {positive : Bool} {uart : Uart (Module × Event)}
    {m : Module} {event : Event} {entry : Entry}
    (hcomplete : s.uart.complete n positive = some (uart, some (m, event)))
    (hentry : s.uart.inflight[n]? = some entry) (hother : entry.isFor Gps.device = false) :
    m ≠ .gps := by
  rintro rfl
  obtain ⟨e, he, -, -, -, -, -, -, hcb⟩ := Uart.complete_eq_some hcomplete
  rw [hentry] at he
  cases he
  obtain ⟨htransfer, ref, href, hcallback⟩ := hcb _ rfl
  obtain ⟨hdevice, -⟩ := htyped.slots ref _ hcallback
  rw [Option.mem_def] at href
  have href' : ref.1 = Gps.device := (Option.some.inj hdevice).symm
  simp [Entry.isFor, htransfer, href, href'] at hother

/-- A completion of the GPS device while the configuration goes on. -/
theorem OneWrite.complete {calls : List Call} (h : s.OneWrite calls) {n : ℕ} {positive : Bool}
    {uart : Uart (Module × Event)} {cb : Option (Module × Event)} {entry : Entry}
    (hcomplete : s.uart.complete n positive = some (uart, cb))
    (hentry : s.uart.inflight[n]? = some entry) (hfor : entry.isFor Gps.device = true) :
    calls = [] ∧ s.confirmed = 0 ∧ uart.inflightFor Gps.device = 0 ∧
      cb = if positive then some (.gps, .configured) else none := by
  have hmem : entry ∈ s.uart.inflight := List.mem_of_getElem? hentry
  have hpos : 0 < s.uart.inflightFor Gps.device := List.countP_pos_iff.mpr ⟨entry, hmem, hfor⟩
  have hcount := @Uart.complete_for _ _ _ Gps.device _ _ _ _ hcomplete hentry
  rw [if_pos hfor] at hcount
  rcases h.one with ⟨-, hnone, -⟩ | ⟨hcalls, hone⟩
  · omega
  · refine ⟨hcalls, by omega, by omega, ?_⟩
    rw [Uart.complete_runs hcomplete hentry]
    obtain ⟨-, ref, href, hcallback⟩ := h.isConfigWrite hmem hfor
    rw [Option.mem_def] at href
    simp [href, hcallback]

theorem ConfigOrder.completed (h : s.ConfigOrder) {n : ℕ} {positive : Bool}
    {uart : Uart (Module × Event)} (hcomplete : s.uart.complete n positive = some (uart, none))
    (hfits : s.ConfigFits (.uartComplete n positive)) (htyped : Typed { s with uart }) :
    ConfigOrder { s with uart } := by
  obtain ⟨entry, hentry, -⟩ := Uart.complete_eq_some hcomplete
  have hsame (hother : entry.isFor Gps.device = false) : ConfigSame s { s with uart } :=
    ⟨rfl, rfl, rfl, Uart.SameFor.complete hcomplete hentry hother⟩
  by_cases hfor : entry.isFor Gps.device = true
  swap
  · exact h.same htyped (hsame (Bool.eq_false_of_not_eq_true hfor))
  have hmem : entry ∈ s.uart.inflight := List.mem_of_getElem? hentry
  refine ⟨htyped, fun hcreated => ?_, fun calls hcalls hconfiguring => ?_⟩
  · exact absurd hfor (List.countP_eq_zero.mp (h.fresh hcreated).2.1 entry hmem)
  · -- the write was to complete with a positive count, and would have called back
    have hgoing := h.going calls hcalls hconfiguring
    obtain ⟨rfl, -, -, hcb⟩ := hgoing.complete hcomplete hentry hfor
    obtain ⟨rfl, -⟩ := hfits ⟨hcalls, hconfiguring⟩ entry hentry (hgoing.isConfigWrite hmem hfor)
    cases hcb

theorem ConfigOrder.calledBack (h : s.ConfigOrder) {n : ℕ} {positive : Bool}
    {uart : Uart (Module × Event)} {m : Module} {event : Event}
    (hcomplete : s.uart.complete n positive = some (uart, some (m, event)))
    (hfits : s.ConfigFits (.uartComplete n positive))
    (htyped : (({ s with uart } : System).post m event).Typed) :
    (({ s with uart } : System).post m event).ConfigOrder := by
  obtain ⟨entry, hentry, -⟩ := Uart.complete_eq_some hcomplete
  by_cases hfor : entry.isFor Gps.device = true
  swap
  · have hother := Bool.eq_false_of_not_eq_true hfor
    have hsame : ConfigSame s { s with uart } :=
      ⟨rfl, rfl, rfl, Uart.SameFor.complete hcomplete hentry hother⟩
    refine h.same htyped (hsame.trans (post_configSame fun hm => ?_))
    exact absurd hm (complete_gps h.typed hcomplete hentry hother)
  have hmem : entry ∈ s.uart.inflight := List.mem_of_getElem? hentry
  refine ⟨htyped, fun hcreated => ?_, fun calls hcalls hconfiguring => ?_⟩
  · exact absurd hfor (List.countP_eq_zero.mp (h.fresh hcreated).2.1 entry hmem)
  · have hgoing := h.going calls hcalls hconfiguring
    obtain ⟨rfl, hconfirmed, hinflight, hcb⟩ := hgoing.complete hcomplete hentry hfor
    obtain ⟨rfl, hroom⟩ := hfits ⟨hcalls, hconfiguring⟩ entry hentry
      (hgoing.isConfigWrite hmem hfor)
    cases hcb
    have hprepared : uart.preparedFor Gps.device = 0 := by
      obtain ⟨-, -, -, -, -, -, hprepared, -⟩ := Uart.complete_eq_some hcomplete
      rw [Uart.preparedFor, hprepared]
      exact hgoing.prepared
    refine ⟨hprepared, fun e he hefor => ?_, .inr ⟨rfl, ?_⟩⟩
    · exact absurd hefor (List.countP_eq_zero.mp hinflight e he)
    · have hposted : (({ s with uart } : System).post .gps .configured).confirmed =
          s.confirmed + 1 := by
        simp [confirmed, post, Queue.push, hroom]
      change uart.inflightFor Gps.device + _ = 1
      omega

theorem ConfigOrder.step (h : s.ConfigOrder) (hstep : Step s act t) (hfits : s.ConfigFits act) :
    t.ConfigOrder := by
  have htyped := h.typed.step hstep
  cases step_effect hstep with
  | published _ hsub =>
    refine h.same htyped (post_configSame fun hm hevent => ?_)
    subst hm hevent
    cases hsub
  | @endPosted m rest | @endRefused m rest =>
    have hsame : ConfigSame s (s.post m .fsmEnd) := post_configSame fun _ => by simp
    exact h.same htyped ⟨rfl, rfl, hsame.confirmed, hsame.uart⟩
  | @joined m rest =>
    by_cases hm : m = .gps
    · subst hm
      exact .of_ended htyped (by simp [setThread]) (by simp [setThread])
    · have hsame : ConfigSame s (s.setThread m .joined) := setThread_configSame hm
      exact h.same htyped ⟨rfl, hsame.thread, rfl, hsame.uart⟩
  | @deleted d rest =>
    refine h.same htyped ?_
    cases d with
    | queueDelete m =>
      refine ⟨rfl, rfl, ?_, fun hprepared => .refl hprepared⟩
      by_cases hm : m = .gps
      · subst hm
        simp [confirmed, deleteStep]
      · simp [confirmed, deleteStep, Ne.symm hm]
    | timerDestroy m => exact ⟨rfl, rfl, rfl, fun hprepared => .refl hprepared⟩
  | @uartStopped data answer =>
    exact h.same htyped ⟨rfl, rfl, rfl, Uart.SameFor.stop⟩
  | @started m answers hthread =>
    by_cases hm : m = .gps
    · subst hm
      exact h.started hthread htyped
    · exact h.same htyped (dispatched_configSame hm)
  | @poppedEnd m answers events =>
    by_cases hm : m = .gps
    · subst hm
      exact .of_ended htyped (by simp [setThread]) (by simp [setThread])
    · exact h.same htyped ((popped_configSame hm).trans (setThread_configSame hm))
  | @poppedEvent m answers event events hthread hevents =>
    by_cases hm : m = .gps
    · subst hm
      exact h.poppedEvent hthread hevents htyped
    · exact h.same htyped ((popped_configSame hm).trans (dispatched_configSame hm))
  | @called m data answer c calls hthread =>
    by_cases hm : m = .gps
    · subst hm
      exact h.called hthread hfits htyped
    · have hc : c.Of m := h.typed.calls m _ hthread c (List.mem_cons_self ..)
      exact h.same htyped ((setThread_configSame hm).trans (call_configSame hm hc))
  | @handled handler hmem =>
    refine h.same htyped ?_
    have hpost := @post_configSame { s with handlers := s.handlers.erase handler } handler.1
      handler.2 fun hm hevent => by
        have htimer := h.typed.handlers handler hmem
        rw [hm, hevent] at htimer
        cases htimer
    exact ⟨rfl, rfl, hpost.confirmed, hpost.uart⟩
  | checked hcheck =>
    obtain ⟨-, rfl⟩ := Uart.check_eq_some hcheck
    exact h.same htyped ⟨rfl, rfl, rfl, fun hprepared =>
      ⟨hprepared, rfl, fun _ hmem _ => hmem, fun _ _ => rfl⟩⟩
  | completed hcomplete => exact h.completed hcomplete hfits htyped
  | calledBack hcomplete => exact h.calledBack hcomplete hfits htyped
  | _ => exact h.same htyped ⟨rfl, rfl, rfl, fun hprepared => .refl hprepared⟩

/-! ## Where the configuration stalls -/

theorem ConfigOrder.called_stalls (h : s.ConfigOrder) {data : Option SlotRef}
    {answer : Submission} {calls : List Call}
    (hthread : s.thread .gps = .running (configWrite :: calls))
    (hconfiguring : (s.machine .gps).configuring = true)
    (hfails : ¬ ((s.uart.allocateSlot Gps.device).isSome = true ∧ answer = .done))
    (htyped : ((s.setThread .gps (.running calls)).call .gps data answer configWrite).Typed) :
    ¬ ((s.setThread .gps (.running calls)).call .gps data answer configWrite).NotStalled := by
  obtain ⟨hprepared, -, hone⟩ := h.going _ hthread hconfiguring
  rcases hone with ⟨hpending, hinflight, hconfirmed⟩ | ⟨hnil, -⟩
  swap
  · cases hnil
  rcases hpending.cons with ⟨hinit, -⟩ | ⟨-, rfl⟩
  · cases hinit
  intro hgoes
  have hrests : ((s.setThread .gps (.running [])).call .gps data answer configWrite).ConfigRests :=
    ⟨by simp [setThread], by rw [call_machine]; exact hconfiguring⟩
  refine not_configLeft htyped ?_ hconfirmed (hgoes hrests)
  have hsame := @Uart.transfer_not_done _ s.uart Gps.device
    (some (Module.gps, Event.configured)) answer hfails
  change List.countP _ (s.uart.transfer Gps.device (some (Module.gps, Event.configured))
    answer).inflight = 0
  rw [hsame]
  exact hinflight

theorem ConfigOrder.completed_stalls (h : s.ConfigOrder) {n : ℕ} {positive : Bool}
    (hrests : s.ConfigRests) {entry : Entry} (hentry : s.uart.inflight[n]? = some entry)
    (hwrite : s.IsConfigWrite entry) (hfails : ¬ (positive = true ∧ (s.queue .gps).HasRoom))
    (hstep : Step s (.uartComplete n positive) t) : ¬ t.NotStalled := by
  have htyped := h.typed.step hstep
  have hgoing := h.going [] hrests.1 hrests.2
  have hfor := isFor_of_isConfigWrite h.typed hwrite
  intro hgoes
  cases step_effect hstep with
  | completed hcomplete =>
    obtain ⟨-, hconfirmed, hinflight, -⟩ := hgoing.complete hcomplete hentry hfor
    exact not_configLeft htyped hinflight hconfirmed (hgoes hrests)
  | calledBack hcomplete =>
    obtain ⟨-, hconfirmed, hinflight, hcb⟩ := hgoing.complete hcomplete hentry hfor
    split_ifs at hcb with hpositive
    cases hcb
    have hroom : ¬ (s.queue .gps).HasRoom := fun hroom => hfails ⟨hpositive, hroom⟩
    refine not_configLeft htyped hinflight ?_ (hgoes hrests)
    simpa [confirmed, post, Queue.push, hroom] using hconfirmed

/-- A configuration write that is refused, fails, is empty, or whose event does not fit, is the
last. -/
theorem ConfigOrder.stalls (h : s.ConfigOrder) (hstep : Step s act t) (hfits : ¬ s.ConfigFits act) :
    ¬ t.NotStalled := by
  cases act with
  | threadCall m data answer =>
    simp only [ConfigFits, Classical.not_imp, not_forall] at hfits
    obtain ⟨rfl, hconfiguring, calls, hthread, hfails⟩ := hfits
    have htyped := h.typed.step hstep
    obtain ⟨c, calls', hthread', rfl⟩ := threadCall_eq_some hstep
    rw [hthread] at hthread'
    cases hthread'
    exact h.called_stalls hthread hconfiguring hfails htyped
  | uartComplete n positive =>
    simp only [ConfigFits, Classical.not_imp, not_forall] at hfits
    obtain ⟨hrests, entry, hentry, hwrite, hfails⟩ := hfits
    exact h.completed_stalls hrests hentry hwrite hfails hstep
  | _ => exact absurd trivial hfits

end System

/-- Configuration: in every state of a run where the GPS machine rests in its initial state a
configuration write is in flight or its event is queued, exactly when every configuration write of
the run is submitted, completes with a positive count, and finds room for its event. -/
theorem configuration_goes_on_iff {acts : List Act} {s : System} :
    Run (Into System.NotStalled System.Step) System.init acts s ↔
      Run (Guarded System.ConfigFits System.Step) System.init acts s :=
  Run.into_iff_guarded System.init_configOrder
    (fun _ _ _ horder hstep hfits =>
      ⟨horder.step hstep hfits, (horder.step hstep hfits).notStalled⟩)
    (fun _ _ _ horder hstep hfits => horder.stalls hstep hfits)

/-- The first configuration write completes with nothing written. -/
def emptyConfigWrite : List Act := begin .gps 2 ++ [.uartCheck, .uartComplete 0 false]

theorem configuration_stalls :
    ∃ s, Run System.Step System.init emptyConfigWrite s ∧ ¬ s.NotStalled ∧
      s.uart.outstanding = [] ∧ (s.queue .gps).events = [] := by
  have hstalls : ((System.init.exec (fun _ _ => true) emptyConfigWrite).map fun s =>
      decide (¬ s.NotStalled) && s.uart.outstanding.isEmpty && (s.queue .gps).events.isEmpty) =
      some true := by decide
  obtain ⟨s, hexec, hall⟩ := Option.map_eq_some_iff.mp hstalls
  refine ⟨s, (System.run_of_exec hexec).of_guarded, ?_⟩
  simpa [and_assoc] using hall

end SnipeIt.ActiveObject
