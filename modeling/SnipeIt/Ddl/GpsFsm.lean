import SnipeIt.ActiveObject.Machines
import SnipeIt.Util.Fsm

/-! # The states of the GPS as handlers of the state machine (`gps_fsm.c`)

The handlers make their transitions themselves, the update state from within its
`ENTRY`. What they come to is the machine of the active object, which goes from
one resting state to the next at once.
-/

namespace SnipeIt.Ddl
open ActiveObject Support Util

/-- What the handlers share: the fields of `GPSObject`, what the hardware answers, and the calls
made so far. -/
structure GpsData where
  retry : ℕ
  configStep : ℕ
  valid : Bool
  answers : Answers
  calls : List Call

def GpsData.call (d : GpsData) (calls : List Call) : GpsData := { d with calls := d.calls ++ calls }

@[simp] theorem GpsData.call_nil (d : GpsData) : d.call [] = d := by
  simp [GpsData.call]

namespace GpsFsm

def eventRead : ℕ := 4

def eventTimeout : ℕ := 5

def eventFrameReceived : ℕ := 6

def eventConfigured : ℕ := 7

abbrev GpsHandling := Handling SensorState GpsData

def goTo (next : SensorState) (d : GpsData) : GpsHandling :=
  .transition (some next) d fun _ d => .done d

def retryHandler (d : GpsData) : GpsHandling :=
  let d := { d with retry := d.retry + 1 }
  if d.retry < Sensor.readRetryMax then goTo .read d else goTo .idle { d with valid := false }

def gpsInitState (type : ℕ) (d : GpsData) : GpsHandling :=
  if type = fsmEventInit then
    let d := { d with valid := false }
    if d.answers.initOk then
      .done (({ d with configStep := 0 }).call (.timerInit .timeout :: Gps.configSendCurrentStep))
    else goTo .error d
  else if type = eventConfigured then
    let d := { d with configStep := d.configStep + 1 }
    if d.configStep < Gps.cfgSeqLen then .done (d.call Gps.configSendCurrentStep) else goTo .idle d
  else .done d

def gpsErrorState (type : ℕ) (d : GpsData) : GpsHandling :=
  if type = fsmEventEntry then .done { d with valid := false } else .done d

def gpsIdleState (type : ℕ) (d : GpsData) : GpsHandling :=
  if type = fsmEventEntry then .done { d with retry := 0 }
  else if type = eventRead then goTo .read d
  else .done d

def gpsReadState (type : ℕ) (d : GpsData) : GpsHandling :=
  if type = fsmEventEntry then
    .done (d.call [.uartWrite Gps.device none, .uartRead Gps.device (some .frameReceived),
      .timerArm .once])
  else if type = eventFrameReceived then goTo .update d
  else if type = eventTimeout then retryHandler (d.call [.uartAbort Gps.device])
  else if type = fsmEventExit then .done (d.call [.timerDisarm])
  else .done d

def gpsUpdateState (type : ℕ) (d : GpsData) : GpsHandling :=
  if type = fsmEventEntry then
    if d.answers.frameValid then goTo .idle { d with valid := true } else retryHandler d
  else .done d

def gpsHandlers : Handlers SensorState GpsData
  | .init => gpsInitState
  | .error => gpsErrorState
  | .idle => gpsIdleState
  | .read => gpsReadState
  | .update => gpsUpdateState

theorem gpsHandlers_quiet : Fsm.QuietExit gpsHandlers := by
  intro state d
  cases state with
  | read => exact ⟨d.call [.timerDisarm], rfl⟩
  | _ => exact ⟨d, rfl⟩

def gpsEventType : Event → Option ℕ
  | .read => some eventRead
  | .timeout => some eventTimeout
  | .frameReceived => some eventFrameReceived
  | .configured => some eventConfigured
  | _ => none

/-- What the handlers share when the GPS is in `g`. -/
def gpsData (g : Gps) (answers : Answers) (calls : List Call) : GpsData :=
  ⟨g.sensor.retry, g.configStep, g.sensor.valid, answers, calls⟩

/-- A handler that is called in `state` returns with the GPS in `g`. -/
def Rests (fuel : ℕ) (handling : GpsHandling) (state : SensorState) (g : Gps) (answers : Answers)
    (calls : List Call) : Prop :=
  ∀ f : Fsm SensorState GpsData, f.currentState = state →
    ∃ f', Fsm.run gpsHandlers fuel handling f = some f' ∧ f'.currentState = g.sensor.state ∧
      f'.data = gpsData g answers calls

theorem Rests.done {fuel : ℕ} {handling : GpsHandling} {state : SensorState} {g : Gps}
    {answers : Answers} {calls : List Call} (hdata : handling = .done (gpsData g answers calls))
    (hstate : state = g.sensor.state) : Rests (fuel + 1) handling state g answers calls := by
  subst hdata
  exact fun _ hf => ⟨_, rfl, hf.trans hstate, rfl⟩

/-- A transition, once the `EXIT` has returned, is the `ENTRY` of the next state. -/
theorem Rests.goTo {fuel : ℕ} {state next : SensorState} {d d' : GpsData} {g : Gps}
    {answers : Answers} {calls : List Call}
    (hexit : gpsHandlers state fsmEventExit d = .done d')
    (hentry : Rests (fuel + 1) (gpsHandlers next fsmEventEntry d') next g answers calls) :
    Rests (fuel + 2) (goTo next d) state g answers calls := by
  intro f hstate
  subst hstate
  obtain ⟨f', hrun, hf'⟩ := hentry ⟨next, d', f.trace ++ [.exit f.currentState] ++ [.entry next],
    f.begun ++ [next]⟩ rfl
  exact ⟨f', Fsm.run_goTo hexit hrun, hf'⟩

variable {g : Gps} {answers : Answers} {calls : List Call} {fuel : ℕ}

theorem rests_idle {state : SensorState} {d : GpsData}
    (hexit : gpsHandlers state fsmEventExit d = .done (gpsData g answers calls)) :
    Rests (fuel + 2) (goTo .idle d) state { g with sensor := g.sensor.enterIdle } answers calls :=
  .goTo hexit (.done rfl rfl)

theorem rests_read {state : SensorState} {d : GpsData}
    (hexit : gpsHandlers state fsmEventExit d = .done (gpsData g answers calls)) :
    Rests (fuel + 2) (goTo .read d) state { g with sensor := (g.sensor.enterRead Gps.device).1 }
      answers (calls ++ (g.sensor.enterRead Gps.device).2) :=
  .goTo hexit (.done rfl rfl)

theorem rests_retry (calls left : List Call)
    (hexit : ∀ d, gpsHandlers g.sensor.state fsmEventExit d = .done (d.call left)) :
    Rests (fuel + 2) (retryHandler (gpsData g answers calls)) g.sensor.state
      { g with sensor := (g.sensor.retryHandler Gps.device).1 } answers
      (calls ++ left ++ (g.sensor.retryHandler Gps.device).2) := by
  by_cases hmore : g.sensor.retry + 1 < Sensor.readRetryMax
  · have hhandler : retryHandler (gpsData g answers calls) =
        goTo .read { gpsData g answers calls with retry := g.sensor.retry + 1 } := if_pos hmore
    rw [hhandler, Sensor.retryHandler, if_pos hmore]
    exact Rests.goTo (hexit _) (Rests.done rfl rfl)
  · have hhandler : retryHandler (gpsData g answers calls) =
        goTo .idle { gpsData g answers calls with retry := g.sensor.retry + 1, valid := false } :=
      if_neg hmore
    rw [hhandler, Sensor.retryHandler, if_neg hmore, List.append_nil]
    exact Rests.goTo (hexit _) (Rests.done rfl rfl)

/-- The `ENTRY` of the update state goes on at once. -/
theorem rests_update (calls : List Call) :
    Rests (fuel + 3) (gpsUpdateState fsmEventEntry (gpsData g answers calls)) .update
      { g with sensor := (g.sensor.enterUpdate Gps.device answers).1 } answers
      (calls ++ (g.sensor.enterUpdate Gps.device answers).2) := by
  by_cases hvalid : answers.frameValid
  · have hhandler : gpsUpdateState fsmEventEntry (gpsData g answers calls) =
        goTo .idle { gpsData g answers calls with valid := true } := if_pos hvalid
    rw [hhandler, Sensor.enterUpdate, if_pos hvalid, List.append_nil]
    exact Rests.goTo rfl (Rests.done rfl rfl)
  · have hhandler : gpsUpdateState fsmEventEntry (gpsData g answers calls) =
        retryHandler (gpsData g answers calls) := if_neg hvalid
    have hretry : Rests (fuel + 3) _ _ _ answers _ :=
      rests_retry (g := { g with sensor.state := .update }) calls [] fun d => by
        rw [GpsData.call_nil]
        rfl
    rw [List.append_nil] at hretry
    rw [hhandler, Sensor.enterUpdate, if_neg hvalid]
    exact hretry

/-- A configuration message went out: the next one, or the idle state. -/
theorem rests_configured (retry : ℕ) (valid : Bool) (configStep : ℕ) :
    Rests (fuel + 4) (gpsInitState eventConfigured
        (gpsData ⟨⟨.init, retry, valid⟩, configStep⟩ answers calls)) .init
      (Gps.dispatch answers ⟨⟨.init, retry, valid⟩, configStep⟩ .configured).1 answers
      (calls ++ (Gps.dispatch answers ⟨⟨.init, retry, valid⟩, configStep⟩ .configured).2) := by
  by_cases hmore : configStep + 1 < Gps.cfgSeqLen
  · have hhandler : gpsInitState eventConfigured
          (gpsData ⟨⟨.init, retry, valid⟩, configStep⟩ answers calls) =
        .done (gpsData ⟨⟨.init, retry, valid⟩, configStep + 1⟩ answers
          (calls ++ Gps.configSendCurrentStep)) := if_pos hmore
    have hdispatch : Gps.dispatch answers ⟨⟨.init, retry, valid⟩, configStep⟩ .configured =
        (⟨⟨.init, retry, valid⟩, configStep + 1⟩, Gps.configSendCurrentStep) := if_pos hmore
    rw [hdispatch, hhandler]
    exact Rests.done rfl rfl
  · have hhandler : gpsInitState eventConfigured
          (gpsData ⟨⟨.init, retry, valid⟩, configStep⟩ answers calls) =
        goTo .idle (gpsData ⟨⟨.init, retry, valid⟩, configStep + 1⟩ answers calls) :=
      if_neg hmore
    have hdispatch : Gps.dispatch answers ⟨⟨.init, retry, valid⟩, configStep⟩ .configured =
        (⟨⟨.idle, 0, valid⟩, configStep + 1⟩, []) := if_neg hmore
    rw [hdispatch, hhandler, List.append_nil]
    exact rests_idle (g := ⟨⟨.init, retry, valid⟩, configStep + 1⟩) rfl

/-- On an event of its own, each state of the GPS does what the machine of the active object does,
with the same calls. -/
theorem rests_dispatch {event : Event} {type : ℕ} (htype : gpsEventType event = some type) :
    Rests (fuel + 4) (gpsHandlers g.sensor.state type (gpsData g answers calls)) g.sensor.state
      (g.dispatch answers event).1 answers (calls ++ (g.dispatch answers event).2) := by
  obtain ⟨⟨state, retry, valid⟩, configStep⟩ := g
  have hignored (state : SensorState) :
      Rests (fuel + 4) (.done (gpsData ⟨⟨state, retry, valid⟩, configStep⟩ answers calls)) state
        ⟨⟨state, retry, valid⟩, configStep⟩ answers (calls ++ []) :=
    .done (by rw [List.append_nil]) rfl
  cases event with
  | read =>
    cases htype
    cases state with
    | idle => exact rests_read rfl
    | _ => exact hignored _
  | timeout =>
    cases htype
    cases state with
    | read =>
      have hretry : Rests (fuel + 4) _ _ _ answers _ :=
        rests_retry (g := ⟨⟨.read, retry, valid⟩, configStep⟩) (calls ++ [.uartAbort Gps.device])
          [.timerDisarm] fun _ => rfl
      rw [List.append_assoc, List.append_assoc] at hretry
      exact hretry
    | _ => exact hignored _
  | frameReceived =>
    cases htype
    cases state with
    | read =>
      have hupdate : Rests (fuel + 3) _ _ _ answers _ :=
        rests_update (g := ⟨⟨.read, retry, valid⟩, configStep⟩) (calls ++ [.timerDisarm])
      rw [List.append_assoc] at hupdate
      exact Rests.goTo rfl hupdate
    | _ => exact hignored _
  | configured =>
    cases htype
    cases state with
    | init => exact rests_configured retry valid configStep
    | _ => exact hignored _
  | _ => cases htype

theorem rests_init (hstate : g.sensor.state = .init) :
    Rests (fuel + 2) (gpsInitState fsmEventInit (gpsData g answers calls)) .init (g.init answers).1
      answers (calls ++ (g.init answers).2) := by
  obtain ⟨⟨state, retry, valid⟩, configStep⟩ := g
  cases hstate
  by_cases hok : answers.initOk
  · have hhandler : gpsInitState fsmEventInit
          (gpsData ⟨⟨.init, retry, valid⟩, configStep⟩ answers calls) =
        .done (gpsData ⟨⟨.init, retry, false⟩, 0⟩ answers
          (calls ++ .timerInit .timeout :: Gps.configSendCurrentStep)) := if_pos hok
    rw [hhandler, Gps.init, if_pos hok]
    exact Rests.done rfl rfl
  · have hhandler : gpsInitState fsmEventInit
          (gpsData ⟨⟨.init, retry, valid⟩, configStep⟩ answers calls) =
        goTo .error (gpsData ⟨⟨.init, retry, false⟩, configStep⟩ answers calls) := if_neg hok
    rw [hhandler, Gps.init, if_neg hok, List.append_nil]
    exact Rests.goTo rfl (Rests.done rfl rfl)

/-- The machine of the active object is what the transitions of the handlers come to: `f` in the
state of `g` returns from every event of the GPS in the state of `g` after it. -/
theorem sendEvent_dispatch {f : Fsm SensorState GpsData} {event : Event} {type : ℕ}
    (hstate : f.currentState = g.sensor.state) (hdata : f.data = gpsData g answers calls)
    (htype : gpsEventType event = some type) :
    ∃ f', f.sendEvent gpsHandlers 4 type = some f' ∧
      f'.currentState = (g.dispatch answers event).1.sensor.state ∧
      f'.data = gpsData (g.dispatch answers event).1 answers
        (calls ++ (g.dispatch answers event).2) := by
  rw [Fsm.sendEvent, hstate, hdata]
  have hrests : Rests 4 (gpsHandlers g.sensor.state type (gpsData g answers calls)) _ _ answers _ :=
    rests_dispatch htype
  exact hrests _ rfl

/-- The device is configured and read, and its response rejected. -/
def readRejected : List (ℕ × GpsData) :=
  (List.range Gps.cfgSeqLen).map (fun n => (eventConfigured, ⟨0, n, false, ⟨true, false⟩, []⟩)) ++
    [(eventRead, ⟨0, 8, false, ⟨true, false⟩, []⟩),
      (eventFrameReceived, ⟨0, 8, false, ⟨true, false⟩, []⟩)]

theorem fsm_transition_discipline_gps :
    ∃ f g : Fsm SensorState GpsData,
      Fsm.init gpsHandlers 4 .init ⟨0, 0, false, ⟨true, false⟩, []⟩ = some f ∧
      Run (Fsm.Step gpsHandlers) f readRejected g ∧
      g.begun = [.idle, .read, .update, .read] ∧ StateCall.Disciplined g.lifecycle ∧
      StateCall.current g.lifecycle = some g.currentState ∧
      g.currentState = g.begun.getLastD .init := by
  have hexec : ∃ f g : Fsm SensorState GpsData,
      Fsm.init gpsHandlers 4 .init ⟨0, 0, false, ⟨true, false⟩, []⟩ = some f ∧
      exec (fun f a => { f with data := a.2 }.sendEvent gpsHandlers 4 a.1) f readRejected = some g ∧
      g.begun = [.idle, .read, .update, .read] := ⟨_, _, rfl, rfl, rfl⟩
  obtain ⟨f, g, hinit, hexec, hbegun⟩ := hexec
  have hrun : Run (Fsm.Step gpsHandlers) f readRejected g :=
    (Run.of_exec hexec).mono fun _ _ _ h => ⟨4, h⟩
  exact ⟨f, g, hinit, hrun, hbegun, Fsm.fsm_transition_discipline gpsHandlers_quiet hinit hrun⟩

end GpsFsm

end SnipeIt.Ddl
