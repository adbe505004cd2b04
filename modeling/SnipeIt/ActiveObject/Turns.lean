import SnipeIt.ActiveObject.Machines

/-! # What an event does to a sensor

The distance and the GPS machine are in the same read cycle. An event asks for
a reading, ends an attempt, or is ignored.
-/

namespace SnipeIt.ActiveObject
open Hal

def Machine.sensor? : Machine → Option Sensor
  | .distance s => some s
  | .gps s => some s.sensor
  | _ => none

/-- The read state is entered once: among the calls are its read and its timer. -/
structure EntersRead (calls : List Call) : Prop where
  reads : ∃ device, .uartRead device (some .frameReceived) ∈ calls
  arms : calls.count (.timerArm .once) = 1

/-- The read state is not entered. -/
structure EntersNoRead (calls : List Call) : Prop where
  reads : ∀ device callback, .uartRead device callback ∉ calls
  arms : calls.count (.timerArm .once) = 0

/-- An event that ends an attempt without an accepted frame. -/
def EndsAttempt (frameValid : Bool) (event : Event) : Prop :=
  event = .timeout ∨ event = .frameReceived ∧ frameValid = false

/-- What an event does, whatever the state is. -/
inductive Turn (frameValid : Bool) (s : Sensor) (event : Event) : Sensor → List Call → Prop where
  | ask {calls} (hidle : s.state = .idle) (hcalls : EntersRead calls) :
      Turn frameValid s event { s with state := .read } calls
  | retry {calls} (hread : s.state = .read) (hends : EndsAttempt frameValid event)
      (hmore : s.retry + 1 < Sensor.readRetryMax) (hcalls : EntersRead calls) :
      Turn frameValid s event { s with state := .read, retry := s.retry + 1 } calls
  | giveUp {calls} (hread : s.state = .read) (hends : EndsAttempt frameValid event)
      (hlast : ¬ s.retry + 1 < Sensor.readRetryMax) (hcalls : EntersNoRead calls) :
      Turn frameValid s event { state := .idle, retry := 0, valid := false } calls
  | accept {calls} (hread : s.state = .read) (hevent : event = .frameReceived)
      (hvalid : frameValid = true) (hcalls : EntersNoRead calls) :
      Turn frameValid s event { state := .idle, retry := 0, valid := true } calls
  | configured {t calls} (hinit : s.state = .init) (ht : t = s ∨ t = s.enterIdle)
      (hcalls : EntersNoRead calls) : Turn frameValid s event t calls
  | ignored (hignored : s.state = .read → event ≠ .timeout ∧ event ≠ .frameReceived) :
      Turn frameValid s event s []

/-- A sensor that is reading after an event, without having entered that state, has ignored it. -/
theorem Turn.eq_of_read {frameValid : Bool} {s t : Sensor} {event : Event} {calls : List Call}
    (h : Turn frameValid s event t calls) (hread : t.state = .read) (hcalls : ¬ EntersRead calls) :
    t = s ∧ calls = [] := by
  cases h with
  | ask _ hentered | retry _ _ _ hentered => exact absurd hentered hcalls
  | giveUp | accept => cases hread
  | configured hinit ht =>
    rcases ht with rfl | rfl
    · rw [hinit] at hread
      cases hread
    · cases hread
  | ignored => exact ⟨rfl, rfl⟩

theorem EntersRead.cons {calls : List Call} (h : EntersRead calls) {c : Call}
    (hc : c ≠ .timerArm .once) : EntersRead (c :: calls) where
  reads := h.reads.imp fun _ hmem => List.mem_cons_of_mem _ hmem
  arms := by rw [List.count_cons_of_ne hc, h.arms]

theorem EntersNoRead.cons {calls : List Call} (h : EntersNoRead calls) {c : Call}
    (hc : c ≠ .timerArm .once) (hread : ∀ device callback, c ≠ .uartRead device callback) :
    EntersNoRead (c :: calls) where
  reads device callback hmem :=
    (List.mem_cons.mp hmem).elim (fun heq => hread device callback heq.symm)
      (h.reads device callback)
  arms := by rw [List.count_cons_of_ne hc, h.arms]

theorem entersNoRead_nil : EntersNoRead [] := ⟨fun _ _ h => (List.not_mem_nil h).elim, rfl⟩

theorem Sensor.enterRead_entersRead (device : Device) (s : Sensor) :
    EntersRead (s.enterRead device).2 :=
  ⟨⟨device, by simp [Sensor.enterRead]⟩, by simp [Sensor.enterRead]⟩

/-- The end of an attempt, with the calls before it. -/
theorem Turn.ofRetry {frameValid : Bool} {s : Sensor} {event : Event} (hread : s.state = .read)
    (hends : EndsAttempt frameValid event) (device : Device) (state : SensorState)
    (before : List Call) (harm : .timerArm .once ∉ before)
    (hreads : ∀ device callback, .uartRead device callback ∉ before) :
    Turn frameValid s event (Sensor.retryHandler device { s with state }).1
      (before ++ (Sensor.retryHandler device { s with state }).2) := by
  unfold Sensor.retryHandler
  dsimp only
  split_ifs with hmore
  · refine .retry hread hends hmore ?_
    induction before with
    | nil => exact Sensor.enterRead_entersRead device { s with state, retry := s.retry + 1 }
    | cons c before ih =>
      rw [List.mem_cons, not_or] at harm
      exact (ih harm.2 fun device callback hmem =>
        hreads device callback (List.mem_cons_of_mem _ hmem)).cons (Ne.symm harm.1)
  · refine .giveUp hread hends hmore ?_
    rw [List.append_nil]
    exact ⟨hreads, List.count_eq_zero.mpr harm⟩

theorem Sensor.dispatch_turn (s : Sensor) (device : Device) (answers : Answers) (event : Event) :
    Turn answers.frameValid s event (s.dispatch device answers event).1
      (s.dispatch device answers event).2 := by
  cases event with
  | read =>
    cases hstate : s.state with
    | idle =>
      simp only [Sensor.dispatch, hstate]
      exact .ask hstate (Sensor.enterRead_entersRead device s)
    | _ =>
      simp only [Sensor.dispatch, hstate]
      exact .ignored (by simp)
  | frameReceived =>
    cases hstate : s.state with
    | read =>
      simp only [Sensor.dispatch, hstate]
      cases hvalid : answers.frameValid with
      | true =>
        simp only [Sensor.enterUpdate, hvalid, if_true]
        exact .accept hstate rfl rfl (entersNoRead_nil.cons (by simp) (by simp))
      | false =>
        simp only [Sensor.enterUpdate, hvalid]
        exact Turn.ofRetry hstate (.inr ⟨rfl, rfl⟩) device .update [.timerDisarm] (by simp)
          (by simp)
    | _ =>
      simp only [Sensor.dispatch, hstate]
      exact .ignored (by simp [hstate])
  | timeout =>
    cases hstate : s.state with
    | read =>
      simp only [Sensor.dispatch, hstate]
      have hsame : ({ s with state := .read } : Sensor) = s := by rw [← hstate]
      have hends : EndsAttempt answers.frameValid .timeout := .inl rfl
      have hturn := Turn.ofRetry hstate hends device .read [.uartAbort device, .timerDisarm]
        (by simp) (by simp)
      rw [hsame] at hturn
      exact hturn
    | _ =>
      simp only [Sensor.dispatch, hstate]
      exact .ignored (by simp [hstate])
  | _ => exact .ignored fun _ => by simp

theorem Gps.dispatch_turn (s : Gps) (answers : Answers) (event : Event) :
    Turn answers.frameValid s.sensor event (s.dispatch answers event).1.sensor
      (s.dispatch answers event).2 := by
  by_cases hinit : s.sensor.state = .init
  · cases event with
    | configured =>
      simp only [Gps.dispatch, if_pos hinit, Gps.configured]
      split_ifs
      · exact .configured hinit (.inl rfl) (entersNoRead_nil.cons (by simp) (by simp))
      · exact .configured hinit (.inr rfl) entersNoRead_nil
    | _ =>
      simp only [Gps.dispatch, if_pos hinit]
      exact .ignored (by simp [hinit])
  · unfold Gps.dispatch
    rw [if_neg hinit]
    exact s.sensor.dispatch_turn Gps.device answers event

/-- The inversion for a machine that has a read cycle. -/
theorem Machine.dispatch_turn {machine : Machine} {s : Sensor}
    (h : machine.sensor? = some s) (answers : Answers) (event : Event) :
    ∃ t, (machine.dispatch answers event).1.sensor? = some t ∧
      Turn answers.frameValid s event t (machine.dispatch answers event).2 := by
  cases machine with
  | distance s' =>
    cases h
    exact ⟨_, rfl, s.dispatch_turn Distance.device answers event⟩
  | gps s' =>
    cases h
    exact ⟨_, rfl, s'.dispatch_turn answers event⟩
  | _ => cases h

theorem Machine.dispatch_sensor_none {machine : Machine} (h : machine.sensor? = none)
    (answers : Answers) (event : Event) :
    (machine.dispatch answers event).1.sensor? = none := by
  cases machine with
  | distance | gps => cases h
  | _ => rfl

/-- After its initialisation a sensor has not been asked yet. -/
theorem Machine.init_sensor {m : Module} {answers : Answers} {s : Sensor}
    (h : ((Machine.created m).init answers).1.sensor? = some s) :
    s.retry = 0 ∧ s.state ≠ .read := by
  cases m <;> simp only [Machine.created, Machine.init, Prod.map, Machine.sensor?] at h
  case distance =>
    unfold Distance.init at h
    split_ifs at h <;> (cases h; exact ⟨rfl, nofun⟩)
  case gps =>
    unfold Gps.init at h
    split_ifs at h <;> (cases h; exact ⟨rfl, nofun⟩)
  all_goals cases h

end SnipeIt.ActiveObject
