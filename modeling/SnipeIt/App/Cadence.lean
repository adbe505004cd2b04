import SnipeIt.App.Scheduler
import SnipeIt.Support.Run

/-! # The scheduler's cadence and the temperature-humidity module

The scheduler of `app_init` against the read state of the temperature-humidity
module, on a clock in microseconds. The timer expires on time, no event waits,
and the module takes a read event only a while after its last successful read.
-/

namespace SnipeIt.App
open ActiveObject Support SchedulerObject

def schedulerCycleTimeMs : ℕ := 2000

def schedulerTickMs : ℕ := schedulerCycleTimeMs / subscribersMax

def am2302MinReadIntervalMs : ℕ := 2000

def temperatureHumidityRetryMax : ℕ := 3

def tickUs : ℕ := schedulerTickMs * 1000
def minReadIntervalUs : ℕ := am2302MinReadIntervalMs * 1000

/-- One call of `am2302_read`: how long it takes, and whether it succeeds. -/
structure Transaction where
  duration : ℕ
  ok : Bool

/-- What `temperature_humidity_fsm.c` keeps between two events. -/
structure TemperatureHumidityObject where
  lastReadTick : ℕ
  retry : ℕ
  valid : Bool

namespace TemperatureHumidityObject

/-- The loop of `temperature_humidity_read_state`: whether a read succeeded in the end, and the
time. It is `none` if the transactions do not suffice. -/
def readLoop (m : TemperatureHumidityObject) (now : ℕ) :
    List Transaction → Option (TemperatureHumidityObject × Bool × ℕ)
  | [] => none
  | transaction :: rest =>
    if transaction.ok then
      some ({ m with lastReadTick := now + transaction.duration, valid := true }, true,
        now + transaction.duration)
    else if m.retry + 1 < temperatureHumidityRetryMax then
      readLoop { m with retry := m.retry + 1 } (now + transaction.duration) rest
    else
      some ({ m with retry := m.retry + 1, valid := false }, false, now + transaction.duration)

/-- `temperature_humidity_idle_state` on `eFSM_EVENT_ENTRY`. -/
def enterIdle (m : TemperatureHumidityObject) : TemperatureHumidityObject := { m with retry := 0 }

/-- The guard of `temperature_humidity_read_state`. -/
def Due (m : TemperatureHumidityObject) (now : ℕ) : Prop :=
  minReadIntervalUs < now - m.lastReadTick

instance (m : TemperatureHumidityObject) (now : ℕ) : Decidable (m.Due now) :=
  inferInstanceAs (Decidable (_ < _))

end TemperatureHumidityObject

/-- A read event that the module has taken: whether a read had succeeded before, and whether it
started a transaction. -/
structure ReadEvent where
  afterFirst : Bool
  started : Bool
  deriving DecidableEq

/-- The clock, the scheduler with the next expiry of its timer, and the module, which handles an
event until `busyUntil`. The history: when the run state was entered, whether a read has
succeeded, and the read events. -/
structure Cadence where
  now : ℕ
  scheduler : SchedulerObject
  nextTick : ℕ
  module : TemperatureHumidityObject
  busyUntil : ℕ
  startedAt : ℕ
  hasRead : Bool
  reads : List ReadEvent

inductive CadenceAct where
  | wait (us : ℕ)
  /-- The scheduler handles an event; a read event that it publishes meets the transactions. -/
  | event (event : SchedulerEvent) (transactions : List Transaction)

/-- The publication is `eTEMPERATURE_HUMIDITY_EVENT_READ` for `eAO_TEMPERATURE_HUMIDITY`. -/
def Attempt.IsRead (attempt : Attempt) : Prop := attempt.aoId = 3 ∧ attempt.type = 4

instance (attempt : Attempt) : Decidable attempt.IsRead := inferInstanceAs (Decidable (_ ∧ _))

namespace Cadence

def init (boot : ℕ) : Cadence where
  now := boot
  scheduler := configured true appRequests
  nextTick := 0
  module := ⟨boot, 0, false⟩
  busyUntil := boot
  startedAt := 0
  hasRead := false
  reads := []

/-- `temperature_humidity_read_state` on `eFSM_EVENT_ENTRY`, and back to the idle state. A module
that is still busy would be late. -/
def read (s : Cadence) (transactions : List Transaction) : Option Cadence :=
  if s.now < s.busyUntil then none
  else if s.module.Due s.now then
    (s.module.readLoop s.now transactions).map fun (m, ok, time) =>
      { s with
        module := m.enterIdle
        busyUntil := time
        hasRead := s.hasRead || ok
        reads := s.reads ++ [⟨s.hasRead, true⟩] }
  else
    some { s with module := s.module.enterIdle, reads := s.reads ++ [⟨s.hasRead, false⟩] }

/-- The calls of the scheduler: the timer is armed, the module is sent a read event. -/
def deliver (s : Cadence) (calls : List SchedulerCall) (transactions : List Transaction) :
    Option Cadence :=
  let t :=
    if .timerArm ∈ calls then { s with nextTick := s.now + tickUs, startedAt := s.now } else s
  if ∃ attempt ∈ attempts calls, attempt.IsRead then t.read transactions else some t

/-- A tick arrives exactly when the timer expires, and each transaction takes at most a tick. -/
def apply (s : Cadence) : CadenceAct → Option Cadence
  | .wait us =>
    if s.scheduler.state = .run ∧ s.nextTick < s.now + us then none
    else some { s with now := s.now + us }
  | .event event transactions =>
    if (event = .tick ∧ ¬ (s.scheduler.state = .run ∧ s.now = s.nextTick)) ∨
        ∃ transaction ∈ transactions, tickUs < transaction.duration then none
    else do
      let (scheduler, calls) ← s.scheduler.dispatch event
      deliver
        { s with
          scheduler
          nextTick := if event = .tick then s.nextTick + tickUs else s.nextTick }
        calls transactions

def Step (s : Cadence) (a : CadenceAct) (t : Cadence) : Prop := s.apply a = some t

/-- No read event after the first successful read was skipped. -/
def NoneSkipped (s : Cadence) : Prop := ∀ r ∈ s.reads, r.afterFirst = true → r.started = true

variable {s t : Cadence} {transactions : List Transaction}

theorem readLoop_spec {m m' : TemperatureHumidityObject} {now time : ℕ} {ok : Bool}
    (h : m.readLoop now transactions = some (m', ok, time)) :
    (ok = true ∧ now ≤ m'.lastReadTick) ∨ (ok = false ∧ m'.lastReadTick = m.lastReadTick) := by
  induction transactions generalizing m now with
  | nil => cases h
  | cons transaction rest ih =>
    rw [TemperatureHumidityObject.readLoop] at h
    split_ifs at h with hok hretry
    · cases h
      exact .inl ⟨rfl, Nat.le_add_right _ _⟩
    · rcases ih h with ⟨hdone, hle⟩ | hfailed
      · exact .inl ⟨hdone, (Nat.le_add_right _ _).trans hle⟩
      · exact .inr hfailed
    · cases h
      exact .inr ⟨rfl, rfl⟩

/-- A read event starts a transaction exactly when the last successful read is long enough ago;
then the read fails, or it ends no earlier than now. -/
theorem read_cases (h : s.read transactions = some t) :
    t.scheduler = s.scheduler ∧ t.nextTick = s.nextTick ∧ t.startedAt = s.startedAt ∧
      t.reads = s.reads ++ [⟨s.hasRead, decide (s.module.Due s.now)⟩] ∧
      ((t.hasRead = s.hasRead ∧ t.module.lastReadTick = s.module.lastReadTick) ∨
        s.now ≤ t.module.lastReadTick) := by
  unfold read at h
  split_ifs at h with hbusy hdue
  · obtain ⟨⟨m, ok, time⟩, hloop, rfl⟩ := Option.map_eq_some_iff.mp h
    refine ⟨rfl, rfl, rfl, by simp [hdue], ?_⟩
    rcases readLoop_spec hloop with ⟨-, hle⟩ | ⟨rfl, hsame⟩
    · exact .inr hle
    · exact .inl ⟨Bool.or_false _, hsame⟩
  · cases h
    exact ⟨rfl, rfl, rfl, by simp [hdue], .inl ⟨rfl, rfl⟩⟩

theorem visit_isRead_iff {slot : ℕ} (h : slot < subscribersMax) :
    (∃ attempt ∈ ((configured true appRequests).visit slot).toList, attempt.IsRead) ↔ slot = 2 := by
  have hall : ∀ slot < subscribersMax,
      (∃ attempt ∈ ((configured true appRequests).visit slot).toList, attempt.IsRead) ↔
        slot = 2 := by decide
  exact hall slot h

/-- The time of the next turn of slot 2, in the run state. -/
def nextRead (s : Cadence) : ℕ :=
  s.nextTick + (subscribersMax + 1 - s.scheduler.tick) % subscribersMax * tickUs

/-- The last successful read ended long enough before the run state was entered. -/
def Rested (s : Cadence) : Prop :=
  s.module.lastReadTick + minReadIntervalUs < s.startedAt + 2 * tickUs

instance (s : Cadence) : Decidable s.Rested := inferInstanceAs (Decidable (_ < _))

/-- In the run state the turn of slot 2 comes two ticks after the entry or later, and it comes too
early unless the module has rested. -/
structure Paced (s : Cadence) : Prop where
  sound : s.scheduler.Sound
  table : s.scheduler.subscribers = (configured true appRequests).subscribers
  entered : s.scheduler.state = .run → s.startedAt + 2 * tickUs ≤ s.nextRead
  early : s.hasRead = true → s.scheduler.state = .run → ¬ s.Rested →
    s.nextRead ≤ s.module.lastReadTick + minReadIntervalUs

/-- The turn of slot 2 finds a module that has rested, once a read has succeeded. -/
def Fits (s : Cadence) : CadenceAct → Prop
  | .event .tick _ => s.scheduler.tick + 1 = 2 → s.hasRead = true → s.Rested
  | _ => True

theorem init_paced (boot : ℕ) : (init boot).Paced := by
  refine ⟨configured_sound (by decide), rfl, fun hrun => ?_, fun hread => ?_⟩
  · cases hrun
  · cases hread

/-- An event is dispatched to the scheduler and its calls are delivered. -/
theorem step_event {event : SchedulerEvent} (h : Step s (.event event transactions) t) :
    (event = .tick → s.scheduler.state = .run ∧ s.now = s.nextTick) ∧
      ∃ scheduler calls, s.scheduler.dispatch event = some (scheduler, calls) ∧
        deliver
          { s with
            scheduler := scheduler
            nextTick := if event = .tick then s.nextTick + tickUs else s.nextTick }
          calls transactions = some t := by
  simp only [Step, apply] at h
  by_cases hbad : (event = .tick ∧ ¬ (s.scheduler.state = .run ∧ s.now = s.nextTick)) ∨
      ∃ transaction ∈ transactions, tickUs < transaction.duration
  · rw [if_pos hbad] at h
    cases h
  · rw [if_neg hbad] at h
    obtain ⟨⟨scheduler, calls⟩, hdispatch, hdeliver⟩ := Option.bind_eq_some_iff.mp h
    refine ⟨fun htick => ?_, scheduler, calls, hdispatch, hdeliver⟩
    by_contra hlate
    exact hbad (.inl ⟨htick, hlate⟩)

theorem Paced.tick (h : s.Paced) (hstep : Step s (.event .tick transactions) t) :
    s.scheduler.state = .run ∧ s.now = s.nextTick ∧
      ∃ scheduler : SchedulerObject, scheduler.Sound ∧ scheduler.state = .run ∧
        scheduler.subscribers = (configured true appRequests).subscribers ∧
        scheduler.tick = (s.scheduler.tick + 1) % subscribersMax ∧
        ((s.scheduler.tick + 1 ≠ 2 ∧
            t = { s with scheduler := scheduler, nextTick := s.nextTick + tickUs }) ∨
          (s.scheduler.tick + 1 = 2 ∧
            read { s with scheduler := scheduler, nextTick := s.nextTick + tickUs } transactions =
              some t)) := by
  obtain ⟨harrived, scheduler, calls, hdispatch, hdeliver⟩ := step_event hstep
  obtain ⟨hrun, hnow⟩ := harrived rfl
  obtain ⟨scheduler', calls', hdispatch', hsound, hrun', hsame, htick, hcalls⟩ :=
    h.sound.tick hrun
  rw [hdispatch, Option.some.injEq, Prod.mk.injEq] at hdispatch'
  obtain ⟨rfl, rfl⟩ := hdispatch'
  refine ⟨hrun, hnow, scheduler, hsound, hrun', hsame.trans h.table, htick, ?_⟩
  have hlt := h.sound.tick_lt
  have hslot : (s.scheduler.tick + 1) % subscribersMax = 2 ↔ s.scheduler.tick + 1 = 2 := by
    simp only [subscribersMax] at hlt ⊢
    omega
  have hunarmed : SchedulerCall.timerArm ∉ calls := by simp [hcalls]
  have hread : (∃ attempt ∈ attempts calls, attempt.IsRead) ↔ s.scheduler.tick + 1 = 2 := by
    rw [hcalls, attempts_map_publish, visit_congr h.table,
      visit_isRead_iff (Nat.mod_lt _ (by decide)), hslot]
  simp only [deliver, if_neg hunarmed, if_true] at hdeliver
  by_cases hturn : s.scheduler.tick + 1 = 2
  · rw [if_pos (hread.mpr hturn)] at hdeliver
    exact .inr ⟨hturn, hdeliver⟩
  · rw [if_neg (mt hread.mp hturn)] at hdeliver
    exact .inl ⟨hturn, (Option.some.inj hdeliver).symm⟩

/-- What a START does: it enters the run state, or it is ignored. -/
theorem Paced.start (h : s.Paced) (hstep : Step s (.event .start transactions) t) :
    t = s ∨ ∃ scheduler : SchedulerObject, scheduler.Sound ∧
      scheduler.subscribers = (configured true appRequests).subscribers ∧ scheduler.tick = 0 ∧
      t = { s with scheduler := scheduler, nextTick := s.now + tickUs, startedAt := s.now } := by
  obtain ⟨-, scheduler, calls, hdispatch, hdeliver⟩ := step_event hstep
  by_cases hidle : s.scheduler.state = .idle
  · obtain ⟨scheduler', calls', hdispatch', hsound, -, hsame, htick, hcalls⟩ :=
      h.sound.start hidle
    rw [hdispatch, Option.some.injEq, Prod.mk.injEq] at hdispatch'
    obtain ⟨rfl, rfl⟩ := hdispatch'
    refine .inr ⟨scheduler, hsound, hsame.trans h.table, htick, ?_⟩
    have harmed : SchedulerCall.timerArm ∈ calls := by simp [hcalls]
    have hread : ¬ ∃ attempt ∈ attempts calls, attempt.IsRead := by
      rw [hcalls, attempts_timerArm, attempts_map_publish, visit_congr h.table,
        visit_isRead_iff (by decide)]
      decide
    simp only [deliver, if_pos harmed, if_neg hread] at hdeliver
    exact (Option.some.inj hdeliver).symm
  · rw [start_ignored hidle, Option.some.injEq, Prod.mk.injEq] at hdispatch
    obtain ⟨rfl, rfl⟩ := hdispatch
    exact .inl (by simpa [deliver] using hdeliver.symm)

/-- What a STOP does: the scheduler is not in the run state any more. -/
theorem Paced.stop (h : s.Paced) (hstep : Step s (.event .stop transactions) t) :
    ∃ scheduler : SchedulerObject, scheduler.Sound ∧
      scheduler.subscribers = (configured true appRequests).subscribers ∧
      scheduler.state ≠ .run ∧ t = { s with scheduler := scheduler } := by
  obtain ⟨-, scheduler, calls, hdispatch, hdeliver⟩ := step_event hstep
  obtain ⟨scheduler', calls', hdispatch', hsound, hrun, hsame, hunarmed, hcalls⟩ := h.sound.stop
  rw [hdispatch, Option.some.injEq, Prod.mk.injEq] at hdispatch'
  obtain ⟨rfl, rfl⟩ := hdispatch'
  refine ⟨scheduler, hsound, hsame.trans h.table, hrun, ?_⟩
  simpa [deliver, hunarmed, hcalls] using hdeliver.symm

theorem deliver_reads {calls : List SchedulerCall} (h : s.deliver calls transactions = some t) :
    s.reads <+: t.reads := by
  have harmed : (if .timerArm ∈ calls then
      { s with nextTick := s.now + tickUs, startedAt := s.now } else s).reads = s.reads := by
    split_ifs <;> rfl
  by_cases hread : ∃ attempt ∈ attempts calls, attempt.IsRead
  · simp only [deliver, if_pos hread] at h
    rw [(read_cases h).2.2.2.1, harmed]
    exact List.prefix_append _ _
  · simp only [deliver, if_neg hread] at h
    have hsame : t.reads = s.reads := by rw [← Option.some.inj h, harmed]
    exact hsame ▸ List.prefix_rfl

theorem step_reads {a : CadenceAct} (h : Step s a t) : s.reads <+: t.reads := by
  cases a with
  | wait us =>
    simp only [Step, apply] at h
    split_ifs at h
    cases h
    exact List.prefix_rfl
  | event event transactions =>
    obtain ⟨-, scheduler, calls, -, hdeliver⟩ := step_event h
    have hbegins := deliver_reads hdeliver
    exact hbegins

/-- The turn of slot 2 goes around with the counter. -/
theorem nextRead_tick {scheduler : SchedulerObject} (hlt : s.scheduler.tick < subscribersMax)
    (htick : scheduler.tick = (s.scheduler.tick + 1) % subscribersMax) :
    nextRead { s with scheduler := scheduler, nextTick := s.nextTick + tickUs } =
      if s.scheduler.tick + 1 = 2 then s.nextRead + subscribersMax * tickUs else s.nextRead := by
  have hT : tickUs = 333000 := rfl
  simp only [nextRead, htick, hT, subscribersMax] at hlt ⊢
  split_ifs <;> omega

/-- The turn of slot 2: a module that has rested starts a transaction, and one that has not does
not. -/
theorem Paced.turn {scheduler : SchedulerObject} (h : s.Paced) (hturn : s.scheduler.tick + 1 = 2)
    (hrun : s.scheduler.state = .run) (hnow : s.now = s.nextTick)
    (hscheduler : scheduler.Sound ∧
      scheduler.subscribers = (configured true appRequests).subscribers)
    (hnext : nextRead { s with scheduler := scheduler, nextTick := s.nextTick + tickUs } =
      s.nextRead + subscribersMax * tickUs)
    (hread : read { s with scheduler := scheduler, nextTick := s.nextTick + tickUs } transactions =
      some t) :
    ∃ started, t.reads = s.reads ++ [⟨s.hasRead, started⟩] ∧
      (s.Fits (.event .tick transactions) → t.Paced ∧ (s.hasRead = true → started = true)) ∧
      (¬ s.Fits (.event .tick transactions) → s.hasRead = true ∧ started = false) := by
  obtain ⟨hsame, htimer, hstarted, hreads, hlast⟩ := read_cases hread
  dsimp only at hsame htimer hstarted hreads hlast
  have hnow' : s.nextRead = s.now := by
    have hone : s.scheduler.tick = 1 := Nat.succ.inj hturn
    simp [nextRead, hone, hnow, subscribersMax]
  have hnext' : t.nextRead = s.now + subscribersMax * tickUs := by
    rw [← hnow', ← hnext]
    simp only [nextRead, hsame, htimer]
  have hentered := h.entered hrun
  refine ⟨decide (s.module.Due s.now), hreads, fun hfits => ⟨⟨?_, ?_, fun _ => ?_, ?_⟩, ?_⟩,
    fun hfits => ?_⟩
  · rw [hsame]
    exact hscheduler.1
  · rw [hsame]
    exact hscheduler.2
  · rw [hstarted, hnext', ← hnow']
    exact hentered.trans (Nat.le_add_right _ _)
  · intro hfirst _ hlate
    rcases hlast with ⟨hagain, hlast⟩ | hlast
    · have hrested : s.Rested := hfits hturn (hagain ▸ hfirst)
      rw [Rested, hlast, hstarted] at hlate
      exact absurd hrested hlate
    · have hround : subscribersMax * tickUs ≤ minReadIntervalUs := by decide
      rw [hnext']
      exact Nat.add_le_add hlast hround
  · intro hfirst
    have hrested : s.Rested := hfits hturn hfirst
    rw [Rested] at hrested
    rw [decide_eq_true_eq, TemperatureHumidityObject.Due]
    omega
  · simp only [Fits, not_forall] at hfits
    obtain ⟨-, hfirst, hlate⟩ := hfits
    have hearly := h.early hfirst hrun hlate
    refine ⟨hfirst, ?_⟩
    rw [decide_eq_false_iff_not, TemperatureHumidityObject.Due]
    omega

/-- The steps between two turns of slot 2 leave the history alone; at its turn a module that has
rested starts a transaction, and one that has not does not. -/
theorem Paced.step {a : CadenceAct} (h : s.Paced) (hstep : Step s a t) :
    (t.reads = s.reads ∧ s.Fits a ∧ t.Paced) ∨
      ∃ started, t.reads = s.reads ++ [⟨s.hasRead, started⟩] ∧
        (s.Fits a → t.Paced ∧ (s.hasRead = true → started = true)) ∧
        (¬ s.Fits a → s.hasRead = true ∧ started = false) := by
  cases a with
  | wait us =>
    simp only [Step, apply] at hstep
    split_ifs at hstep
    cases hstep
    exact .inl ⟨rfl, trivial, h.sound, h.table, h.entered, h.early⟩
  | event event transactions =>
    cases event with
    | start =>
      rcases h.start hstep with rfl | ⟨scheduler, hsound, htable, htick, rfl⟩
      · exact .inl ⟨rfl, trivial, h⟩
      · have hnext : nextRead { s with
            scheduler := scheduler
            nextTick := s.now + tickUs
            startedAt := s.now } = s.now + 2 * tickUs := by
          simp only [nextRead, htick]
          show s.now + tickUs + 1 * tickUs = s.now + 2 * tickUs
          omega
        refine .inl ⟨rfl, trivial, hsound, htable, fun _ => hnext.ge, fun _ _ hrested => ?_⟩
        rw [hnext]
        exact Nat.not_lt.mp hrested
    | stop =>
      obtain ⟨scheduler, hsound, htable, hstopped, rfl⟩ := h.stop hstep
      exact .inl ⟨rfl, trivial, hsound, htable, fun hrun => absurd hrun hstopped,
        fun _ hrun => absurd hrun hstopped⟩
    | tick =>
      obtain ⟨hrun, hnow, scheduler, hsound, hrun', htable, htick, hmoves⟩ := h.tick hstep
      have hnext := nextRead_tick h.sound.tick_lt htick
      have hentered := h.entered hrun
      rcases hmoves with ⟨hturn, rfl⟩ | ⟨hturn, hread⟩
      · rw [if_neg hturn] at hnext
        refine .inl ⟨rfl, fun h2 => absurd h2 hturn, hsound, htable, fun _ => ?_, ?_⟩
        · rw [hnext]
          exact hentered
        · intro hfirst _ hrested
          rw [hnext]
          exact h.early hfirst hrun hrested
      · rw [if_pos hturn] at hnext
        exact .inr (h.turn hturn hrun hnow ⟨hsound, htable⟩ hnext hread)

theorem NoneSkipped.of_step {a : CadenceAct} (hstep : Step s a t) (ht : t.NoneSkipped) :
    s.NoneSkipped :=
  fun r hr => ht r ((step_reads hstep).subset hr)

/-- Every read event after the first successful read starts a transaction exactly in the runs in
which the turn of slot 2 never finds a module whose last successful read ended less than an
interval, less two ticks, before the run state was entered. -/
theorem cadence_iff {boot : ℕ} {acts : List CadenceAct} (h : Run Step (init boot) acts s) :
    s.NoneSkipped ↔ Run (Guarded Fits Step) (init boot) acts s := by
  refine h.last_iff_guarded (J := fun _ => True) (by simp [NoneSkipped, init]) (init_paced boot)
    trivial (fun _ _ _ _ _ => trivial) ?_ ?_ ?_
  · exact fun s a t _ hstep ht => ht.of_step hstep
  · intro s a t hs hstep hfits
    rcases hs.step hstep with ⟨hreads, -, ht⟩ | ⟨started, hreads, hgood, -⟩
    · exact ⟨ht, fun hnone => by rwa [NoneSkipped, hreads]⟩
    · obtain ⟨ht, hstarted⟩ := hgood hfits
      refine ⟨ht, fun hnone r hr => ?_⟩
      rw [hreads] at hr
      rcases List.mem_append.mp hr with hold | hnew
      · exact hnone r hold
      · rw [List.mem_singleton.mp hnew]
        exact hstarted
  · intro s a t hs hstep hfits hnone
    rcases hs.step hstep with ⟨-, hgood, -⟩ | ⟨started, hreads, -, hbad⟩
    · exact hfits hgood
    · obtain ⟨hfirst, hskipped⟩ := hbad hfits
      have hstarted := hnone ⟨s.hasRead, started⟩ (by simp [hreads]) hfirst
      rw [hskipped] at hstarted
      cases hstarted

/-- Some ticks of the timer, each on time; a read takes five milliseconds. -/
def ticks (n : ℕ) : List CadenceAct :=
  (List.replicate n [.wait tickUs, .event .tick [⟨5000, true⟩]]).flatten

/-- Two runs of the scheduler, each with one turn of slot 2, and a rest between them. -/
def restedReads : List CadenceAct :=
  .wait 2000000 :: .event .start [] :: ticks 2 ++ .event .stop [] :: .wait 2000000 ::
    .event .start [] :: ticks 2

theorem cadence_iff_rested :
    ∃ s, Run Step (init 0) restedReads s ∧ s.reads = [⟨false, true⟩, ⟨true, true⟩] ∧
      Run (Guarded Fits Step) (init 0) restedReads s := by
  have hreads : (exec apply (init 0) restedReads).map (·.reads) =
      some [⟨false, true⟩, ⟨true, true⟩] := by decide +kernel
  obtain ⟨s, hexec, hs⟩ := Option.map_eq_some_iff.mp hreads
  have hrun : Run Step (init 0) restedReads s := Run.of_exec hexec
  exact ⟨s, hrun, hs, (cadence_iff hrun).mp (by simp [NoneSkipped, hs])⟩

/-- In one run of the scheduler the turn of slot 2 comes every 1998 ms: the first read event comes
too early after the initialisation, the second one succeeds, the third one is skipped. -/
theorem read_skipped :
    ∃ s, Run Step (init 0) (.event .start [] :: ticks 14) s ∧
      s.reads = [⟨false, false⟩, ⟨false, true⟩, ⟨true, false⟩] ∧ ¬ s.NoneSkipped := by
  have hreads : (exec apply (init 0) (.event .start [] :: ticks 14)).map (·.reads) =
      some [⟨false, false⟩, ⟨false, true⟩, ⟨true, false⟩] := by decide +kernel
  obtain ⟨s, hexec, hs⟩ := Option.map_eq_some_iff.mp hreads
  exact ⟨s, Run.of_exec hexec, hs, by simp [NoneSkipped, hs]⟩

end Cadence

end SnipeIt.App
