import SnipeIt.App.Cadence
import SnipeIt.Ddl.Am2302Frame
import SnipeIt.Util.Fsm

/-! # The temperature-humidity machine (`temperature_humidity_fsm.c`)

The read state blocks in its `ENTRY`: it calls `am2302_read` until a call succeeds
or the retries are exhausted, and goes back to the idle state. The transactions
since the initialisation are recorded.
-/

namespace SnipeIt.Ddl.TemperatureHumidity
open App (minReadIntervalUs temperatureHumidityRetryMax)
open Support Util

def eventRead : ℕ := 4

inductive State where
  | init | error | idle | read
  deriving DecidableEq

/-- A call of `am2302_read`: the time of its start signal, and what it has returned. -/
structure Transaction where
  start : ℕ
  result : Except Status Unit

/-- The fields of the object and of its frame, and the static variables. -/
structure Data where
  driver : Am2302.State
  retry : ℕ
  valid : Bool
  lastReadTick : ℕ
  transactions : List Transaction

def Data.tick (d : Data) : Data := { d with driver.moment := d.driver.moment + 1 }

variable (w : Am2302.Hardware)

def now (d : Data) : ℕ := w.clock d.driver.moment

def am2302Read (d : Data) : Except Status Unit × Data :=
  let (result, driver) := Am2302.read w d.driver
  (result, { d with driver, transactions := d.transactions ++ [⟨now w d, result⟩] })

theorem am2302Read_retry (d : Data) : (am2302Read w d).2.retry = d.retry := rfl

def readLoop (d : Data) : Except Status Unit × Data :=
  match _hread : am2302Read w d with
  | (.ok (), d') => (.ok (), { d'.tick with valid := true, lastReadTick := now w d' })
  | (.error status, d') =>
    if d'.retry + 1 < temperatureHumidityRetryMax then readLoop { d' with retry := d'.retry + 1 }
    else (.error status, { d' with retry := d'.retry + 1 })
termination_by temperatureHumidityRetryMax - d.retry
decreasing_by
  have hretry := am2302Read_retry w d
  rw [_hread] at hretry
  dsimp only at hretry ⊢
  omega

/-- The interval since the last successful read is over. -/
def Due (d : Data) : Prop := minReadIntervalUs < now w d - d.lastReadTick

instance (d : Data) : Decidable (Due w d) := inferInstanceAs (Decidable (_ < _))

/-- What follows the loop. -/
def settled : Except Status Unit × Data → Data
  | (.ok (), d) => d
  | (.error _, d) => { d with valid := false }

theorem settled_transactions (r : Except Status Unit × Data) :
    (settled r).transactions = r.2.transactions := by
  rcases r with ⟨_ | _, d⟩ <;> rfl

def readEntry (d : Data) : Data := if Due w d then settled (readLoop w d.tick) else d.tick

def goTo (next : State) (d : Data) : Handling State Data :=
  .transition (some next) d fun _ d => .done d

def initState (type : ℕ) (d : Data) : Handling State Data :=
  if type = fsmEventInit then
    let d := { d with valid := false }
    match Am2302.init w d.driver with
    | (.ok time, driver) => goTo .idle { d with driver, lastReadTick := time }
    | (.error _, driver) => goTo .error { d with driver }
  else .done d

def errorState (type : ℕ) (d : Data) : Handling State Data :=
  if type = fsmEventEntry then .done { d with valid := false } else .done d

def idleState (type : ℕ) (d : Data) : Handling State Data :=
  if type = fsmEventEntry then .done { d with retry := 0 }
  else if type = eventRead then goTo .read d
  else .done d

def readState (type : ℕ) (d : Data) : Handling State Data :=
  if type = fsmEventEntry then goTo .idle (readEntry w d) else .done d

def handlers : Handlers State Data
  | .init => initState w
  | .error => errorState
  | .idle => idleState
  | .read => readState w

def Step (f : Fsm State Data) (type : ℕ) (g : Fsm State Data) : Prop :=
  ∃ fuel, f.sendEvent (handlers w) fuel type = some g

def handleRead (d : Data) : Data := { readEntry w d with retry := 0 }

/-! ## A read event -/

variable {w}

/-- What a call of `am2302_read` comes to. -/
structure Reads (w : Am2302.Hardware) (d d' : Data) (result : Except Status Unit) : Prop where
  transactions : d'.transactions = d.transactions ++ [⟨now w d, result⟩]
  retry : d'.retry = d.retry
  valid : d'.valid = d.valid
  lastReadTick : d'.lastReadTick = d.lastReadTick
  later : now w d ≤ now w d'
  outcome : Am2302.Outcome d.driver d'.driver result

theorem am2302Read_reads {d d' : Data} {result : Except Status Unit}
    (h : am2302Read w d = (result, d')) : Reads w d d' result := by
  obtain ⟨hmoment, houtcome⟩ := Am2302.read_decides w d.driver
  cases h
  exact ⟨rfl, rfl, rfl, rfl, w.mono hmoment, houtcome⟩

/-- What the loop comes to: some failed transactions and a last one, whose result it returns. -/
structure Loops (w : Am2302.Hardware) (d d' : Data) (result : Except Status Unit)
    (failed : List Transaction) (last : Transaction) : Prop where
  transactions : d'.transactions = d.transactions ++ (failed ++ [last])
  count : failed.length + 1 + d.retry ≤ temperatureHumidityRetryMax
  first : (failed ++ [last]).head?.map (·.start) = some (now w d)
  last_result : last.result = result
  valid : result = .ok () → d'.valid = true
  outcome : Am2302.Outcome d.driver d'.driver result

theorem readLoop_loops (d : Data) (hretry : d.retry < temperatureHumidityRetryMax) :
    ∃ failed last, Loops w d (readLoop w d).2 (readLoop w d).1 failed last := by
  fun_induction readLoop w d with
  | case1 d d' hread =>
    have hreads := am2302Read_reads hread
    refine ⟨[], _, ⟨hreads.transactions, ?_, rfl, rfl, fun _ => rfl, ?_⟩⟩
    · rw [List.length_nil]
      omega
    · cases hreads.outcome with
      | ok hparity hhumidity htemperature => exact .ok hparity hhumidity htemperature
  | case2 d status d' hread hmore ih =>
    have hreads := am2302Read_reads hread
    obtain ⟨failed, last, hloops⟩ := ih hmore
    refine ⟨⟨now w d, .error status⟩ :: failed, last,
      ⟨?_, ?_, rfl, hloops.last_result, hloops.valid, ?_⟩⟩
    · rw [hloops.transactions, hreads.transactions, List.append_assoc]
      rfl
    · have hcount := hloops.count
      have hsame := hreads.retry
      rw [List.length_cons]
      dsimp only at hcount
      omega
    · cases hreads.outcome with
      | error hhumidity htemperature => exact hloops.outcome.after hhumidity htemperature
  | case3 d status d' hread hmore =>
    have hreads := am2302Read_reads hread
    refine ⟨[], _, ⟨hreads.transactions, ?_, rfl, rfl, ?_, hreads.outcome⟩⟩
    · rw [List.length_nil]
      omega
    · intro hok
      cases hok

/-- Where the first call succeeds, there is no other one. -/
theorem readLoop_ok {d d' : Data} (h : am2302Read w d = (.ok (), d')) :
    readLoop w d = (.ok (), { d'.tick with valid := true, lastReadTick := now w d' }) := by
  rw [readLoop]
  split
  · rename_i hcall
    rw [h] at hcall
    cases hcall
    rfl
  · rename_i hcall
    rw [h] at hcall
    cases hcall

/-- Where it fails and there are retries left, the next one follows at once. -/
theorem readLoop_error {d d' : Data} {status : Status} (h : am2302Read w d = (.error status, d'))
    (hmore : d'.retry + 1 < temperatureHumidityRetryMax) :
    readLoop w d = readLoop w { d' with retry := d'.retry + 1 } := by
  conv_lhs => rw [readLoop]
  split
  · rename_i hcall
    rw [h] at hcall
    cases hcall
  · rename_i hcall
    rw [h] at hcall
    cases hcall
    rw [if_pos hmore]

/-- What the idle state and the read state come to on a read event. -/
theorem handleRead_spec (d : Data) (hretry : d.retry = 0) :
    (handleRead w d).transactions = d.transactions ∧ (handleRead w d).valid = d.valid ∧
        (handleRead w d).driver = d.tick.driver ∨
      ∃ failed last, failed.length + 1 ≤ temperatureHumidityRetryMax ∧
        (handleRead w d).transactions = d.transactions ++ (failed ++ [last]) ∧
        ((handleRead w d).valid = true ↔ last.result = .ok ()) ∧
        Am2302.Outcome d.driver (handleRead w d).driver last.result := by
  rw [handleRead, readEntry]
  split_ifs with hdue
  · obtain ⟨failed, last, hloops⟩ := readLoop_loops (w := w) d.tick (by
      rw [Data.tick, hretry]
      decide)
    have hcount : failed.length + 1 ≤ temperatureHumidityRetryMax :=
      Nat.le_of_add_right_le hloops.count
    have houtcome := hloops.outcome.after (s := d.driver) rfl rfl
    obtain ⟨htransactions, -, -, hlast, hvalid, -⟩ := hloops
    rw [← hlast] at houtcome hvalid
    right
    refine ⟨failed, last, hcount, ?_⟩
    rcases hresult : readLoop w d.tick with ⟨status | ⟨⟩, d'⟩
    · rw [hresult] at htransactions hlast houtcome
      refine ⟨htransactions, ?_, houtcome⟩
      rw [hlast]
      exact iff_of_false Bool.false_ne_true (by simp)
    · rw [hresult] at htransactions hlast houtcome hvalid
      exact ⟨htransactions, iff_of_true (hvalid hlast) hlast, houtcome⟩
  · exact .inl ⟨rfl, rfl, rfl⟩

/-- The fields that the module of the cadence keeps. -/
def Data.object (d : Data) : App.TemperatureHumidityObject := ⟨d.lastReadTick, d.retry, d.valid⟩

/-- The loop is that of the module of the cadence, for transactions that take as long as the clock
says. -/
theorem readLoop_refines (d : Data) (start : ℕ) (hstart : start ≤ now w d) :
    ∃ transactions ok time, d.object.readLoop start transactions =
      some ((settled (readLoop w d)).object, ok, time) := by
  fun_induction readLoop w d generalizing start with
  | case1 d d' hread =>
    have hreads := am2302Read_reads hread
    have hend : start + (now w d' - start) = now w d' :=
      Nat.add_sub_of_le (hstart.trans hreads.later)
    refine ⟨[⟨now w d' - start, true⟩], true, now w d', ?_⟩
    rw [App.TemperatureHumidityObject.readLoop, if_pos rfl]
    dsimp only
    rw [hend]
    simp only [settled, Data.object, Data.tick, hreads.retry]
  | case2 d status d' hread hmore ih =>
    have hreads := am2302Read_reads hread
    have hend : start + (now w d' - start) = now w d' :=
      Nat.add_sub_of_le (hstart.trans hreads.later)
    obtain ⟨transactions, ok, time, hloop⟩ := ih (now w d') le_rfl
    refine ⟨⟨now w d' - start, false⟩ :: transactions, ok, time, ?_⟩
    rw [hreads.retry] at hmore
    have hmore : d.object.retry + 1 < temperatureHumidityRetryMax := hmore
    rw [App.TemperatureHumidityObject.readLoop, if_neg Bool.false_ne_true, if_pos hmore, ← hloop]
    dsimp only
    rw [hend]
    simp only [Data.object, hreads.retry, hreads.valid, hreads.lastReadTick]
  | case3 d status d' hread hmore =>
    have hreads := am2302Read_reads hread
    refine ⟨[⟨now w d' - start, false⟩], false, start + (now w d' - start), ?_⟩
    rw [hreads.retry] at hmore
    have hmore : ¬ d.object.retry + 1 < temperatureHumidityRetryMax := hmore
    rw [App.TemperatureHumidityObject.readLoop, if_neg Bool.false_ne_true, if_neg hmore]
    simp only [settled, Data.object, hreads.retry, hreads.lastReadTick]

/-- A read event is one of the module of the cadence. -/
theorem handleRead_refines (d : Data) :
    ¬ d.object.Due (now w d) ∧ (handleRead w d).object = d.object.enterIdle ∨
      d.object.Due (now w d) ∧ ∃ transactions m ok time,
        d.object.readLoop (now w d) transactions = some (m, ok, time) ∧
        (handleRead w d).object = m.enterIdle := by
  by_cases hdue : Due w d
  · obtain ⟨transactions, ok, time, hloop⟩ :=
      readLoop_refines (w := w) d.tick (now w d) (w.mono (Nat.le_succ _))
    refine .inr ⟨hdue, transactions, _, ok, time, hloop, ?_⟩
    rw [handleRead, readEntry, if_pos hdue]
    rfl
  · refine .inl ⟨hdue, ?_⟩
    rw [handleRead, readEntry, if_neg hdue]
    rfl

/-! ## The machine at rest -/

variable {d : Data} {f g : Fsm State Data} {fuel type : ℕ} {types : List ℕ}

theorem run_goTo_idle {m : Fsm State Data} (hexit : ∀ d, handlers w m.currentState fsmEventExit d =
    .done d) (d : Data) :
    ∃ g, Fsm.run (handlers w) 2 (goTo .idle d) m = some g ∧ g.currentState = .idle ∧
      g.data = { d with retry := 0 } :=
  ⟨_, Fsm.run_goTo (hexit d) rfl, rfl, rfl⟩

/-- A read event in the idle state returns, and the machine is back in the idle state. -/
theorem sendEvent_read (hidle : f.currentState = .idle) :
    ∃ g, f.sendEvent (handlers w) 3 eventRead = some g ∧ g.currentState = .idle ∧
      g.data = handleRead w f.data := by
  obtain ⟨g, hrun, hstate, hdata⟩ := run_goTo_idle (w := w)
    (m := ⟨.read, f.data, f.trace ++ [.event .idle eventRead] ++ [.exit .idle] ++ [.entry .read],
      f.begun ++ [.read]⟩) (fun _ => rfl) (readEntry w f.data)
  rw [Fsm.sendEvent, hidle]
  exact ⟨g, Fsm.run_goTo rfl hrun, hstate, hdata⟩

theorem step_read (hidle : f.currentState = .idle) (h : Step w f eventRead g) :
    g.data = handleRead w f.data := by
  obtain ⟨fuel, hsend⟩ := h
  obtain ⟨g', hsend', -, hdata⟩ := sendEvent_read (w := w) hidle
  rw [Fsm.run_unique hsend hsend', hdata]

/-- What a step from the idle or the error state does. -/
inductive Does (w : Am2302.Hardware) (f : Fsm State Data) (type : ℕ) (g : Fsm State Data) :
    Prop where
  | reads (hidle : f.currentState = .idle) (htype : type = eventRead)
      (hstate : g.currentState = .idle) (hdata : g.data = handleRead w f.data)
  | enters (hidle : f.currentState = .idle) (hstate : g.currentState = .idle)
      (hdata : g.data = { f.data with retry := 0 })
  | fails (herror : f.currentState = .error) (hstate : g.currentState = .error)
      (hdata : g.data = { f.data with valid := false })
  | ignores (hstate : g.currentState = f.currentState) (hdata : g.data = f.data)

theorem step_does (hrest : f.currentState = .idle ∨ f.currentState = .error)
    (h : Step w f type g) : Does w f type g := by
  obtain ⟨fuel, hsend⟩ := h
  rcases hrest with hidle | herror
  · by_cases hread : type = eventRead
    · subst hread
      obtain ⟨g', hsend', hstate, hdata⟩ := sendEvent_read (w := w) hidle
      rw [Fsm.run_unique hsend hsend']
      exact .reads hidle rfl hstate hdata
    · rw [Fsm.sendEvent, hidle, handlers, idleState, if_neg hread] at hsend
      split_ifs at hsend with hentry
      · rw [Fsm.run_done hsend]
        exact .enters hidle rfl rfl
      · rw [Fsm.run_done hsend]
        exact .ignores hidle.symm rfl
  · rw [Fsm.sendEvent, herror, handlers, errorState] at hsend
    split_ifs at hsend with hentry
    · rw [Fsm.run_done hsend]
      exact .fails herror rfl rfl
    · rw [Fsm.run_done hsend]
      exact .ignores herror.symm rfl

inductive Starts (w : Am2302.Hardware) (d : Data) (f : Fsm State Data) : Prop where
  | fails (hstate : f.currentState = .error) (htransactions : f.data.transactions = d.transactions)
      (hhumidity : f.data.driver.humidity = d.driver.humidity)
      (htemperature : f.data.driver.temperature = d.driver.temperature)
  | idles (hstate : f.currentState = .idle) (htransactions : f.data.transactions = d.transactions)
      (hhumidity : f.data.driver.humidity = d.driver.humidity)
      (htemperature : f.data.driver.temperature = d.driver.temperature)
      (hretry : f.data.retry = 0) (hvalid : f.data.valid = false)
      (htick : f.data.lastReadTick ≤ now w f.data)

theorem Starts.transactions (h : Starts w d f) : f.data.transactions = d.transactions := by
  cases h with
  | fails _ htransactions => exact htransactions
  | idles _ htransactions => exact htransactions

theorem init_starts (h : Fsm.init (handlers w) fuel .init d = some f) : Starts w d f := by
  obtain ⟨-, hhumidity, htemperature⟩ := Am2302.init_keeps (w := w) d.driver
  rw [Fsm.init, handlers, initState, if_pos rfl] at h
  dsimp only at h
  rcases hinit : Am2302.init w d.driver with ⟨status | time, driver⟩
  · rw [hinit] at h hhumidity htemperature
    have herror : Fsm.run (handlers w) 2 (goTo .error { d with valid := false, driver })
        ⟨.init, d, [.init .init], []⟩ = some _ := Fsm.run_goTo rfl rfl
    rw [Fsm.run_unique h herror]
    exact .fails rfl rfl hhumidity htemperature
  · have htime := Am2302.init_time hinit
    rw [hinit] at h hhumidity htemperature
    obtain ⟨g, hrun, hstate, hdata⟩ := run_goTo_idle (w := w) (m := ⟨.init, d, [.init .init], []⟩)
      (fun _ => rfl) { d with valid := false, driver, lastReadTick := time }
    rw [Fsm.run_unique h hrun]
    apply Starts.idles hstate <;> rw [hdata]
    · exact hhumidity
    · exact htemperature
    · exact htime

/-! ## Runs -/

/-- A transaction was attempted, and the most recent one has succeeded. -/
def LastSucceeded (transactions : List Transaction) : Prop :=
  ∃ last, transactions.getLast? = some last ∧ last.result = .ok ()

theorem not_lastSucceeded_nil : ¬ LastSucceeded [] := by
  rintro ⟨last, hlast, -⟩
  cases hlast

theorem lastSucceeded_append (before : List Transaction) (last : Transaction) :
    LastSucceeded (before ++ [last]) ↔ last.result = .ok () := by
  rw [LastSucceeded, List.getLast?_concat]
  simp

structure AtRest (f : Fsm State Data) : Prop where
  state : f.currentState = .idle ∨ f.currentState = .error
  retry : f.currentState = .idle → f.data.retry = 0
  valid : f.currentState = .idle → (f.data.valid = true ↔ LastSucceeded f.data.transactions)

theorem Starts.atRest (hnone : d.transactions = []) (h : Starts w d f) : AtRest f := by
  cases h with
  | fails hstate => exact ⟨.inr hstate, by simp [hstate], by simp [hstate]⟩
  | idles hstate htransactions hhumidity htemperature hretry hvalid =>
    refine ⟨.inl hstate, fun _ => hretry, fun _ => ?_⟩
    rw [htransactions, hnone, hvalid]
    exact iff_of_false Bool.false_ne_true not_lastSucceeded_nil

theorem AtRest.step (hf : AtRest f) (h : Step w f type g) : AtRest g := by
  cases step_does hf.state h with
  | reads hidle htype hstate hdata =>
    refine ⟨.inl hstate, fun _ => by rw [hdata]; rfl, fun _ => ?_⟩
    rw [hdata]
    rcases handleRead_spec (w := w) f.data (hf.retry hidle) with
      ⟨htransactions, hvalid, -⟩ | ⟨failed, last, -, htransactions, hvalid, -⟩
    · rw [htransactions, hvalid]
      exact hf.valid hidle
    · rw [htransactions, ← List.append_assoc, lastSucceeded_append]
      exact hvalid
  | enters hidle hstate hdata =>
    refine ⟨.inl hstate, fun _ => by rw [hdata], fun _ => ?_⟩
    rw [hdata]
    exact hf.valid hidle
  | fails herror hstate hdata => exact ⟨.inr hstate, by simp [hstate], by simp [hstate]⟩
  | ignores hstate hdata =>
    refine ⟨hstate ▸ hf.state, ?_, ?_⟩
    · rw [hstate, hdata]
      exact hf.retry
    · rw [hstate, hdata]
      exact hf.valid

theorem run_atRest (hnone : d.transactions = [])
    (hinit : Fsm.init (handlers w) fuel .init d = some f) (hrun : Run (Step w) f types g) :
    AtRest g :=
  hrun.invariant ((init_starts hinit).atRest hnone) fun _ _ _ hf h => hf.step h

/-- As the machine of the active object has it, an event leads to no other state. -/
theorem AtRest.step_state (hf : AtRest f) (h : Step w f type g) :
    g.currentState = f.currentState := by
  cases step_does hf.state h with
  | reads hidle htype hstate => exact hstate.trans hidle.symm
  | enters hidle hstate => exact hstate.trans hidle.symm
  | fails herror hstate => exact hstate.trans herror.symm
  | ignores hstate => exact hstate

/-- The values of the frame of the object are the same in both, or those of the received frame,
which passes the parity check. -/
def Decoded (d d' : Data) : Prop :=
  (d'.driver.humidity = d.driver.humidity ∧ d'.driver.temperature = d.driver.temperature) ∨
    Am2302.parityCheck d'.driver.respFrame = true ∧
      d'.driver.humidity = Am2302.humidityOf d'.driver.respFrame ∧
      d'.driver.temperature = Am2302.temperatureOf d'.driver.respFrame

theorem AtRest.step_decoded (hf : AtRest f) (h : Step w f type g) : Decoded f.data g.data := by
  cases step_does hf.state h with
  | reads hidle htype hstate hdata =>
    rw [hdata]
    rcases handleRead_spec (w := w) f.data (hf.retry hidle) with
      ⟨-, -, hdriver⟩ | ⟨failed, last, -, -, -, houtcome⟩
    · left
      rw [hdriver]
      exact ⟨rfl, rfl⟩
    · cases hresult : last.result with
      | ok =>
        rw [hresult] at houtcome
        cases houtcome with
        | ok hparity hhumidity htemperature => exact .inr ⟨hparity, hhumidity, htemperature⟩
      | error status =>
        rw [hresult] at houtcome
        cases houtcome with
        | error hhumidity htemperature => exact .inl ⟨hhumidity, htemperature⟩
  | enters hidle hstate hdata =>
    rw [hdata]
    exact .inl ⟨rfl, rfl⟩
  | fails herror hstate hdata =>
    rw [hdata]
    exact .inl ⟨rfl, rfl⟩
  | ignores hstate hdata =>
    rw [hdata]
    exact .inl ⟨rfl, rfl⟩

/-- In the idle state, a read event has one outcome: at most three transactions, and the machine is
back in the idle state with no retries. -/
theorem AtRest.read_event (hf : AtRest f) (hidle : f.currentState = .idle) :
    ∃ g, (∀ g', Step w f eventRead g' ↔ g' = g) ∧ g.currentState = .idle ∧ g.data.retry = 0 ∧
      ∃ made, g.data.transactions = f.data.transactions ++ made ∧
        made.length ≤ temperatureHumidityRetryMax := by
  obtain ⟨g, hsend, hstate, hdata⟩ := sendEvent_read (w := w) hidle
  refine ⟨g, ?_, hstate, by rw [hdata]; rfl, ?_⟩
  · intro g'
    constructor
    · rintro ⟨fuel, hsend'⟩
      exact Fsm.run_unique hsend' hsend
    · rintro rfl
      exact ⟨3, hsend⟩
  · rw [hdata]
    rcases handleRead_spec (w := w) f.data (hf.retry hidle) with
      ⟨htransactions, -, -⟩ | ⟨failed, last, hcount, htransactions, -, -⟩
    · exact ⟨[], by rw [htransactions, List.append_nil], Nat.zero_le _⟩
    · exact ⟨_, htransactions, by rw [List.length_append, List.length_singleton]; exact hcount⟩

/-- The read cycle, in every run and on every hardware. -/
theorem read_cycle (w : Am2302.Hardware) (d : Data) (hnone : d.transactions = []) (fuel : ℕ)
    (f g : Fsm State Data) (types : List ℕ)
    (hinit : Fsm.init (handlers w) fuel .init d = some f) (hrun : Run (Step w) f types g) :
    Decoded d f.data ∧ (∀ type g', Step w g type g' → Decoded g.data g'.data) ∧
      (g.currentState = .idle →
        (g.data.valid = true ↔ LastSucceeded g.data.transactions) ∧
        ∃ g', (∀ h, Step w g eventRead h ↔ h = g') ∧ g'.currentState = .idle ∧ g'.data.retry = 0 ∧
          ∃ made, g'.data.transactions = g.data.transactions ++ made ∧
            made.length ≤ temperatureHumidityRetryMax) := by
  have hrest := run_atRest hnone hinit hrun
  refine ⟨?_, fun _ _ h => hrest.step_decoded h, fun hidle => ?_⟩
  · cases init_starts hinit with
    | fails _ _ hhumidity htemperature => exact .inl ⟨hhumidity, htemperature⟩
    | idles _ _ hhumidity htemperature => exact .inl ⟨hhumidity, htemperature⟩
  · exact ⟨hrest.valid hidle, hrest.read_event hidle⟩

/-- The object and the static variables before the initialisation. -/
def blank : Data := ⟨⟨0, ⟨0, 0, 0, 0, 0⟩, 0, 0⟩, 0, false, 0, []⟩

def responding : Am2302.Hardware := Am2302.sensor (Am2302.encode 652 true 101).bits

theorem responding_started :
    ∃ f : Fsm State Data, Fsm.init (handlers responding) 2 .init blank = some f ∧
      f.currentState = .idle ∧ f.data = { blank with driver.moment := 2 } :=
  ⟨_, rfl, rfl, rfl⟩

/-- A read event. -/
theorem read_cycle_responding :
    ∃ f g : Fsm State Data, Fsm.init (handlers responding) 2 .init blank = some f ∧
      Run (Step responding) f [eventRead] g ∧
      (g.data.valid = true ↔ LastSucceeded g.data.transactions) := by
  obtain ⟨f, hinit, hidle, -⟩ := responding_started
  obtain ⟨g, hsend, hstate, -⟩ := sendEvent_read (w := responding) hidle
  have hrun : Run (Step responding) f [eventRead] g := .single ⟨3, hsend⟩
  have hcycle := read_cycle responding blank rfl 2 f g [eventRead] hinit hrun
  exact ⟨f, g, hinit, hrun, (hcycle.2.2 hstate).1⟩

end SnipeIt.Ddl.TemperatureHumidity
