import SnipeIt.ActiveObject.Machines
import SnipeIt.Util.EventBus

/-! # The scheduler (`scheduler.c`, `scheduler_fsm.c`)

Modules subscribe to the slots of a table. In its run state the scheduler
publishes the event of slot 0 and, at each tick of its timer, goes on to the next
slot. Reading the event of a slot that nobody has subscribed to would follow a
null pointer, so a step of the machine may fail.
-/

namespace SnipeIt.App
open ActiveObject Util

def subscribersMax : ℕ := 6

structure Subscriber where
  event : Option BusEvent
  aoId : ℕ
  active : Bool

def Subscriber.zero : Subscriber := ⟨none, 0, false⟩

structure SchedulerObject where
  state : SchedulerState
  tick : ℕ
  subscribers : List Subscriber
  length_eq : subscribers.length = subscribersMax

inductive SchedulerEvent where
  | start | stop | tick
  deriving DecidableEq

structure Attempt where
  slot : ℕ
  aoId : ℕ
  type : ℕ
  deriving DecidableEq

inductive SchedulerCall where
  | timerArm
  | timerDisarm
  | publish (attempt : Attempt)
  deriving DecidableEq

def SchedulerCall.attempt? : SchedulerCall → Option Attempt
  | .publish attempt => some attempt
  | _ => none

structure SlotRequest where
  slot : ℕ
  aoId : ℕ
  event : Option BusEvent

namespace SchedulerObject

def created : SchedulerObject :=
  ⟨.init, 0, List.replicate subscribersMax .zero, List.length_replicate⟩

def subscribe (s : SchedulerObject) (request : SlotRequest) : Status × SchedulerObject :=
  if subscribersMax ≤ request.slot then (.invalidValue, s)
  else
    match request.event with
    | none => (.nullParam, s)
    | some event =>
      if (s.subscribers[request.slot]?).any (·.active) then (.actionFailed, s)
      else
        (.successful,
          { s with
            subscribers := s.subscribers.set request.slot ⟨some event, request.aoId, true⟩
            length_eq := List.length_set.trans s.length_eq })

def enterIdle (s : SchedulerObject) : SchedulerObject := { s with state := .idle, tick := 0 }

def init (s : SchedulerObject) (timerOk : Bool) : SchedulerObject :=
  if timerOk then s.enterIdle else { s with state := .error }

/-- The arguments of a publication for a slot. -/
def readSlot (s : SchedulerObject) (slot : ℕ) : Option Attempt := do
  let subscriber ← s.subscribers[slot]?
  let event ← subscriber.event
  return ⟨slot, subscriber.aoId, event.type⟩

def enterRun (s : SchedulerObject) : Option (SchedulerObject × List SchedulerCall) := do
  let attempt ← s.readSlot 0
  return ({ s with state := .run }, [.timerArm, .publish attempt])

def handleTick (s : SchedulerObject) : Option (SchedulerObject × List SchedulerCall) := do
  let tick := (s.tick + 1) % subscribersMax
  let subscriber ← s.subscribers[tick]?
  if subscriber.active then
    let attempt ← s.readSlot tick
    return ({ s with tick }, [.publish attempt])
  else return ({ s with tick }, [])

/-- `util_fsm_send_event`. An event that the state does not know is only logged. -/
def dispatch (s : SchedulerObject) : SchedulerEvent → Option (SchedulerObject × List SchedulerCall)
  | .start =>
    match s.state with
    | .idle => s.enterRun
    | _ => some (s, [])
  | .stop =>
    match s.state with
    | .run => some (s.enterIdle, [.timerDisarm])
    | _ => some (s, [])
  | .tick =>
    match s.state with
    | .run => s.handleTick
    | _ => some (s, [])

/-- The events of a queue, one after the other, and all the calls. -/
def dispatchAll (s : SchedulerObject) :
    List SchedulerEvent → Option (SchedulerObject × List SchedulerCall)
  | [] => some (s, [])
  | event :: events => do
    let (t, calls) ← s.dispatch event
    let (u, rest) ← t.dispatchAll events
    return (u, calls ++ rest)

/-- The scheduler as it is when START is published: its timer may have failed, and `app_init` has
subscribed the modules. -/
def configured (timerOk : Bool) (requests : List SlotRequest) : SchedulerObject :=
  requests.foldl (fun s request => (s.subscribe request).2) (created.init timerOk)

/-- Somebody has subscribed to the slot. -/
def Active (s : SchedulerObject) (slot : ℕ) : Prop := (s.subscribers[slot]?).any (·.active) = true

instance (s : SchedulerObject) (slot : ℕ) : Decidable (s.Active slot) :=
  inferInstanceAs (Decidable (_ = true))

def visit (s : SchedulerObject) (slot : ℕ) : Option Attempt :=
  if s.Active slot then s.readSlot slot else none

/-- An entry of the table has an event exactly when it is active. -/
def Tabled (s : SchedulerObject) : Prop :=
  ∀ subscriber ∈ s.subscribers, subscriber.active = subscriber.event.isSome

/-- Slot 0 may be read, the counter is in range, and it is reset in the idle state. -/
structure Sound (s : SchedulerObject) : Prop where
  tabled : s.Tabled
  zero : s.Active 0
  tick_lt : s.tick < subscribersMax
  idle : s.state = .idle → s.tick = 0

def attempts (calls : List SchedulerCall) : List Attempt := calls.filterMap SchedulerCall.attempt?

@[simp] theorem attempts_nil : attempts [] = [] := rfl

@[simp] theorem attempts_publish (attempt : Attempt) (calls : List SchedulerCall) :
    attempts (.publish attempt :: calls) = attempt :: attempts calls := rfl

@[simp] theorem attempts_timerArm (calls : List SchedulerCall) :
    attempts (.timerArm :: calls) = attempts calls := rfl

@[simp] theorem attempts_timerDisarm (calls : List SchedulerCall) :
    attempts (.timerDisarm :: calls) = attempts calls := rfl

@[simp] theorem attempts_append (calls calls' : List SchedulerCall) :
    attempts (calls ++ calls') = attempts calls ++ attempts calls' := List.filterMap_append

@[simp] theorem attempts_map_publish (as : List Attempt) : attempts (as.map .publish) = as := by
  rw [attempts, List.filterMap_map]
  exact List.filterMap_some

variable {s t : SchedulerObject}

theorem Sound.of_subscribers (h : s.Sound) (hsame : t.subscribers = s.subscribers)
    (htick : t.tick < subscribersMax) (hidle : t.state = .idle → t.tick = 0) : t.Sound := by
  refine ⟨?_, ?_, htick, hidle⟩
  · unfold Tabled
    rw [hsame]
    exact h.tabled
  · unfold Active
    rw [hsame]
    exact h.zero

theorem visit_congr (h : t.subscribers = s.subscribers) : t.visit = s.visit := by
  funext slot
  have hactive : t.Active slot ↔ s.Active slot := by rw [Active, Active, h]
  have hread : t.readSlot slot = s.readSlot slot := by rw [readSlot, readSlot, h]
  simp only [visit, hactive, hread]

theorem active_iff {slot : ℕ} :
    s.Active slot ↔ ∃ subscriber, s.subscribers[slot]? = some subscriber ∧ subscriber.active := by
  simp [Active, Option.any_eq_true]

theorem Active.lt {slot : ℕ} (h : s.Active slot) : slot < subscribersMax := by
  obtain ⟨subscriber, hget, -⟩ := active_iff.mp h
  rw [← s.length_eq]
  exact (List.getElem?_eq_some_iff.mp hget).1

theorem Sound.readSlot (h : s.Sound) {slot : ℕ} (hactive : s.Active slot) :
    ∃ attempt, s.readSlot slot = some attempt ∧ attempt.slot = slot := by
  obtain ⟨subscriber, hget, hsub⟩ := active_iff.mp hactive
  have hevent := h.tabled subscriber (List.mem_of_getElem? hget)
  rw [hsub, eq_comm, Option.isSome_iff_exists] at hevent
  obtain ⟨event, hevent⟩ := hevent
  exact ⟨⟨slot, subscriber.aoId, event.type⟩, by simp [SchedulerObject.readSlot, hget, hevent], rfl⟩

theorem mem_visit {slot : ℕ} {attempt : Attempt} (h : attempt ∈ s.visit slot) :
    s.Active slot ∧ attempt.slot = slot := by
  by_cases hactive : s.Active slot
  · simp only [visit, if_pos hactive, SchedulerObject.readSlot, Option.mem_def] at h
    obtain ⟨subscriber, -, h⟩ := Option.bind_eq_some_iff.mp h
    obtain ⟨event, -, h⟩ := Option.bind_eq_some_iff.mp h
    cases h
    exact ⟨hactive, rfl⟩
  · simp [visit, hactive] at h

/-- A tick in the run state goes on to the next slot. -/
theorem Sound.tick (h : s.Sound) (hrun : s.state = .run) :
    ∃ t calls, s.dispatch .tick = some (t, calls) ∧ t.Sound ∧ t.state = .run ∧
      t.subscribers = s.subscribers ∧ t.tick = (s.tick + 1) % subscribersMax ∧
      calls = (s.visit ((s.tick + 1) % subscribersMax)).toList.map .publish := by
  have htick : (s.tick + 1) % subscribersMax < subscribersMax := Nat.mod_lt _ (by decide)
  have hsound : Sound { s with tick := (s.tick + 1) % subscribersMax } :=
    h.of_subscribers rfl htick fun hidle => by simp [hrun] at hidle
  obtain ⟨subscriber, hget⟩ : ∃ subscriber,
      s.subscribers[(s.tick + 1) % subscribersMax]? = some subscriber :=
    ⟨_, List.getElem?_eq_getElem (htick.trans_eq s.length_eq.symm)⟩
  by_cases hactive : s.Active ((s.tick + 1) % subscribersMax)
  · obtain ⟨attempt, hread, -⟩ := h.readSlot hactive
    have hsub : subscriber.active = true := by simpa [Active, hget] using hactive
    refine ⟨_, [.publish attempt], ?_, hsound, hrun, rfl, rfl, ?_⟩
    · simp [dispatch, hrun, handleTick, hget, hsub, hread]
    · simp [visit, hactive, hread]
  · have hsub : subscriber.active = false := by simpa [Active, hget] using hactive
    refine ⟨_, [], ?_, hsound, hrun, rfl, rfl, ?_⟩
    · simp [dispatch, hrun, handleTick, hget, hsub]
    · simp [visit, hactive]

/-- The run state is entered with a visit of slot 0. -/
theorem Sound.start (h : s.Sound) (hidle : s.state = .idle) :
    ∃ t calls, s.dispatch .start = some (t, calls) ∧ t.Sound ∧ t.state = .run ∧
      t.subscribers = s.subscribers ∧ t.tick = 0 ∧
      calls = .timerArm :: (s.visit 0).toList.map .publish := by
  have hsound : Sound { s with state := .run } :=
    h.of_subscribers rfl h.tick_lt fun hrun => by cases hrun
  obtain ⟨attempt, hread, -⟩ := h.readSlot h.zero
  refine ⟨_, [.timerArm, .publish attempt], ?_, hsound, rfl, rfl, h.idle hidle, ?_⟩
  · simp [dispatch, hidle, enterRun, hread]
  · simp [visit, h.zero, hread]

theorem start_ignored (h : s.state ≠ .idle) : s.dispatch .start = some (s, []) := by
  cases hstate : s.state <;> simp_all [dispatch]

theorem tick_ignored (h : s.state ≠ .run) : s.dispatch .tick = some (s, []) := by
  cases hstate : s.state <;> simp_all [dispatch]

/-- A STOP publishes nothing, and leaves the run state. -/
theorem Sound.stop (h : s.Sound) :
    ∃ t calls, s.dispatch .stop = some (t, calls) ∧ t.Sound ∧ t.state ≠ .run ∧
      t.subscribers = s.subscribers ∧ .timerArm ∉ calls ∧ attempts calls = [] := by
  by_cases hrun : s.state = .run
  · have hsound : s.enterIdle.Sound :=
      h.of_subscribers rfl (Nat.zero_lt_of_lt h.tick_lt) fun _ => rfl
    refine ⟨s.enterIdle, [.timerDisarm], ?_, hsound, by simp [enterIdle], rfl, by simp, rfl⟩
    simp [dispatch, hrun]
  · refine ⟨s, [], ?_, h, hrun, rfl, by simp, rfl⟩
    cases hstate : s.state <;> simp_all [dispatch]

theorem Sound.dispatch (h : s.Sound) (event : SchedulerEvent) :
    ∃ t calls, s.dispatch event = some (t, calls) ∧ t.Sound ∧ t.subscribers = s.subscribers ∧
      ∀ attempt ∈ attempts calls, s.Active attempt.slot := by
  have hvisit (slot : ℕ) : ∀ attempt ∈ (s.visit slot).toList, s.Active attempt.slot := by
    intro attempt hattempt
    obtain ⟨hactive, hslot⟩ := mem_visit (Option.mem_toList.mp hattempt)
    rwa [hslot]
  cases event with
  | start =>
    by_cases hidle : s.state = .idle
    · obtain ⟨t, calls, hdispatch, ht, -, hsame, -, hcalls⟩ := h.start hidle
      exact ⟨t, calls, hdispatch, ht, hsame, by simpa [hcalls] using hvisit 0⟩
    · exact ⟨s, [], start_ignored hidle, h, rfl, by simp⟩
  | stop =>
    obtain ⟨t, calls, hdispatch, ht, -, hsame, -, hcalls⟩ := h.stop
    exact ⟨t, calls, hdispatch, ht, hsame, by simp [hcalls]⟩
  | tick =>
    by_cases hrun : s.state = .run
    · obtain ⟨t, calls, hdispatch, ht, -, hsame, -, hcalls⟩ := h.tick hrun
      exact ⟨t, calls, hdispatch, ht, hsame, by simpa [hcalls] using hvisit _⟩
    · exact ⟨s, [], tick_ignored hrun, h, rfl, by simp⟩

/-- No sequence of events makes the scheduler read the event of a slot that is not subscribed. -/
theorem Sound.dispatchAll (h : s.Sound) (events : List SchedulerEvent) :
    ∃ t calls, s.dispatchAll events = some (t, calls) ∧ t.Sound ∧ t.subscribers = s.subscribers ∧
      ∀ attempt ∈ attempts calls, s.Active attempt.slot := by
  induction events generalizing s with
  | nil => exact ⟨s, [], rfl, h, rfl, by simp⟩
  | cons event events ih =>
    obtain ⟨t, calls, hdispatch, ht, hsame, hactive⟩ := h.dispatch event
    obtain ⟨u, rest, hrest, hu, hsame', hactive'⟩ := ih ht
    refine ⟨u, calls ++ rest, ?_, hu, hsame'.trans hsame, ?_⟩
    · simp [SchedulerObject.dispatchAll, hdispatch, hrest]
    · intro attempt hattempt
      rcases List.mem_append.mp (attempts_append calls rest ▸ hattempt) with hfirst | hlater
      · exact hactive attempt hfirst
      · have hthere := hactive' attempt hlater
        rwa [Active, hsame] at hthere

theorem filterMap_cons_toList {α β : Type*} (f : α → Option β) (a : α) (as : List α) :
    (a :: as).filterMap f = (f a).toList ++ as.filterMap f := by
  cases h : f a <;> simp [h]

/-- Until a STOP, the ticks in the run state visit the slots in turn. -/
theorem Sound.dispatchAll_run (h : s.Sound) (hrun : s.state = .run) {during : List SchedulerEvent}
    (hstop : .stop ∉ during) :
    ∃ t calls, s.dispatchAll during = some (t, calls) ∧
      attempts calls = (List.range (during.count .tick)).filterMap fun i =>
        s.visit ((s.tick + 1 + i) % subscribersMax) := by
  induction during generalizing s with
  | nil => exact ⟨s, [], rfl, rfl⟩
  | cons event during ih =>
    simp only [List.mem_cons, not_or] at hstop
    cases event with
    | stop => exact absurd rfl hstop.1
    | start =>
      obtain ⟨t, calls, hrest, hcalls⟩ := ih h hrun hstop.2
      refine ⟨t, calls, ?_, ?_⟩
      · simp [SchedulerObject.dispatchAll, SchedulerObject.dispatch, hrun, hrest]
      · rw [hcalls, List.count_cons_of_ne (by simp)]
    | tick =>
      obtain ⟨t, calls, hdispatch, ht, htrun, hsame, htick, hcalls⟩ := h.tick hrun
      obtain ⟨u, rest, hrest, hcalls'⟩ := ih ht htrun hstop.2
      refine ⟨u, calls ++ rest, ?_, ?_⟩
      · simp [SchedulerObject.dispatchAll, hdispatch, hrest]
      · have hnext (i : ℕ) : ((s.tick + 1) % subscribersMax + 1 + i) % subscribersMax =
            (s.tick + 1 + (i + 1)) % subscribersMax := by
          simp only [subscribersMax]
          omega
        rw [attempts_append, hcalls, attempts_map_publish, hcalls', List.count_cons_self,
          List.range_succ_eq_map, filterMap_cons_toList, List.filterMap_map, visit_congr hsame,
          htick]
        simp only [hnext]
        rfl

/-- A whole round visits every slot once, wherever it starts. -/
theorem round_perm {tick : ℕ} (h : tick < subscribersMax) :
    ((List.range subscribersMax).map fun i => (tick + 1 + i) % subscribersMax).Perm
      (List.range subscribersMax) := by
  have hall : ∀ tick < subscribersMax,
      ((List.range subscribersMax).map fun i => (tick + 1 + i) % subscribersMax).Perm
        (List.range subscribersMax) := by decide
  exact hall tick h

/-- In any six ticks the slot is published once if it is active, and not at all if it is not. -/
theorem Sound.round_count (h : s.Sound) (slot : ℕ) :
    ((List.range subscribersMax).filterMap fun i =>
        s.visit ((s.tick + 1 + i) % subscribersMax)).countP (fun attempt => attempt.slot = slot) =
      if s.Active slot then 1 else 0 := by
  have hround : ((List.range subscribersMax).filterMap fun i =>
      s.visit ((s.tick + 1 + i) % subscribersMax)).Perm
        ((List.range subscribersMax).filterMap s.visit) := by
    have hperm := (round_perm h.tick_lt).filterMap s.visit
    rwa [List.filterMap_map] at hperm
  have hvisit (i : ℕ) : ((s.visit i).map fun attempt => decide (attempt.slot = slot)).getD false =
      decide (s.Active slot ∧ i = slot) := by
    by_cases hi : s.Active i
    · obtain ⟨attempt, hread, hslot⟩ := h.readSlot hi
      by_cases heq : i = slot
      · rw [heq] at hi hread hslot
        simp [visit, heq, hi, hread, hslot]
      · simp [visit, hi, hread, hslot, heq]
    · have hne : ¬ (s.Active slot ∧ i = slot) := fun ⟨hactive, heq⟩ => hi (heq ▸ hactive)
      simp [visit, hi, hne]
  rw [hround.countP_eq, List.countP_filterMap]
  simp only [hvisit]
  by_cases hactive : s.Active slot
  · have hmem : slot ∈ List.range subscribersMax := List.mem_range.mpr hactive.lt
    have hcount := List.count_eq_one_of_mem List.nodup_range hmem
    simpa [hactive, List.count, beq_eq_decide] using hcount
  · simp [hactive]

theorem subscribe_kept (h : s.Tabled) (request : SlotRequest) :
    (s.subscribe request).2.Tabled ∧ (s.subscribe request).2.state = s.state ∧
      (s.subscribe request).2.tick = s.tick := by
  obtain ⟨slot, aoId, event⟩ := request
  by_cases hslot : subscribersMax ≤ slot
  · simpa [subscribe, hslot] using h
  · cases event with
    | none => simpa [subscribe, hslot] using h
    | some event =>
      by_cases htaken : (s.subscribers[slot]?).any (·.active) = true
      · simpa [subscribe, hslot, htaken] using h
      · have hset : (s.subscribe ⟨slot, aoId, some event⟩).2 =
            { s with
              subscribers := s.subscribers.set slot ⟨some event, aoId, true⟩
              length_eq := List.length_set.trans s.length_eq } := by
          simp only [subscribe, if_neg hslot, if_neg htaken]
        rw [hset]
        refine ⟨fun subscriber hmem => ?_, rfl, rfl⟩
        rcases List.mem_or_eq_of_mem_set hmem with hold | rfl
        · exact h subscriber hold
        · rfl

theorem configured_kept (timerOk : Bool) (requests : List SlotRequest) :
    (configured timerOk requests).Tabled ∧
      (configured timerOk requests).state = (if timerOk then .idle else .error) ∧
      (configured timerOk requests).tick = 0 := by
  induction requests using List.reverseRecOn with
  | nil =>
    refine ⟨fun subscriber hmem => ?_, ?_, ?_⟩
    · have hzero : subscriber = .zero := by
        cases timerOk <;> exact List.eq_of_mem_replicate hmem
      rw [hzero]
      rfl
    · cases timerOk <;> rfl
    · cases timerOk <;> rfl
  | append_singleton requests request ih =>
    obtain ⟨htabled, hstate, htick⟩ := ih
    obtain ⟨htabled', hstate', htick'⟩ := subscribe_kept htabled request
    rw [configured, List.foldl_append]
    exact ⟨htabled', hstate'.trans hstate, htick'.trans htick⟩

theorem configured_sound {timerOk : Bool} {requests : List SlotRequest}
    (hzero : (configured timerOk requests).Active 0) : (configured timerOk requests).Sound := by
  obtain ⟨htabled, -, htick⟩ := configured_kept timerOk requests
  exact ⟨htabled, hzero, by rw [htick]; decide, fun _ => htick⟩

def appRequests : List SlotRequest :=
  [⟨0, 1, some ⟨4⟩⟩, ⟨1, 2, some ⟨7⟩⟩, ⟨2, 3, some ⟨4⟩⟩, ⟨3, 4, some ⟨4⟩⟩, ⟨4, 5, some ⟨4⟩⟩]

/-- Whatever slots are subscribed besides slot 0 and whatever the order of the events, with ticks
from an earlier run among them: no event of a slot without a subscriber is read and the counter is
the index of a slot; from START until STOP the publications are the active ones of the slots
0, 1, …, one slot for the entry and one for each tick; and six ticks in the run state publish each
active slot once. -/
theorem scheduler_round_robin (timerOk : Bool) (requests : List SlotRequest)
    (hzero : (configured timerOk requests).Active 0) (events : List SchedulerEvent) :
    ∃ s calls, (configured timerOk requests).dispatchAll events = some (s, calls) ∧
      s.subscribers = (configured timerOk requests).subscribers ∧
      s.tick < subscribersMax ∧ (∀ attempt ∈ attempts calls, s.Active attempt.slot) ∧
      (s.state = .idle → ∀ during, .stop ∉ during →
        ∃ t calls', s.dispatchAll (.start :: during) = some (t, calls') ∧
          attempts calls' = (List.range (during.count .tick + 1)).filterMap fun i =>
            s.visit (i % subscribersMax)) ∧
      (s.state = .run → ∀ during, .stop ∉ during → during.count .tick = subscribersMax →
        ∃ t calls', s.dispatchAll during = some (t, calls') ∧
          ∀ slot, (attempts calls').countP (fun attempt => attempt.slot = slot) =
            if s.Active slot then 1 else 0) := by
  obtain ⟨s, calls, hevents, hs, hsame, hactive⟩ := (configured_sound hzero).dispatchAll events
  refine ⟨s, calls, hevents, hsame, hs.tick_lt, ?_, ?_, ?_⟩
  · intro attempt hattempt
    have hthere := hactive attempt hattempt
    rwa [Active, ← hsame] at hthere
  · intro hidle during hstop
    obtain ⟨t, calls', hstart, ht, hrun, htable, htick, hcalls⟩ := hs.start hidle
    obtain ⟨u, rest, hrest, hvisits⟩ := ht.dispatchAll_run hrun hstop
    refine ⟨u, calls' ++ rest, ?_, ?_⟩
    · simp [SchedulerObject.dispatchAll, hstart, hrest]
    · rw [attempts_append, hcalls, attempts_timerArm, attempts_map_publish, hvisits, htick,
        visit_congr htable, List.range_succ_eq_map, filterMap_cons_toList, List.filterMap_map]
      simp only [Nat.zero_mod, Function.comp_def, Nat.succ_eq_add_one, Nat.zero_add, Nat.add_comm]
  · intro hrun during hstop hticks
    obtain ⟨t, calls', hduring, hvisits⟩ := hs.dispatchAll_run hrun hstop
    rw [hticks] at hvisits
    exact ⟨t, calls', hduring, fun slot => hvisits ▸ hs.round_count slot⟩

/-- After a STOP a tick is left over; then a second run goes around the table, in which nobody has
subscribed to slot 5. -/
theorem scheduler_round_robin_app :
    ∃ s calls, (configured true appRequests).dispatchAll [.start, .tick, .tick, .stop, .tick] =
        some (s, calls) ∧ s.state = .idle ∧
      ∃ t calls', s.dispatchAll (.start :: List.replicate 7 .tick) = some (t, calls') ∧
        (attempts calls').map (·.slot) = [0, 1, 2, 3, 4, 0, 1] := by
  obtain ⟨s, calls, hevents, htable, -, -, hstay, -⟩ :=
    scheduler_round_robin true appRequests (by decide) [.start, .tick, .tick, .stop, .tick]
  have hidle : ((configured true appRequests).dispatchAll
      [.start, .tick, .tick, .stop, .tick]).map (·.1.state) = some .idle := by decide
  simp only [hevents, Option.map_some, Option.some.injEq] at hidle
  obtain ⟨t, calls', hduring, hvisits⟩ := hstay hidle (List.replicate 7 .tick) (by decide)
  refine ⟨s, calls, hevents, hidle, t, calls', hduring, ?_⟩
  rw [hvisits, visit_congr htable]
  decide

end SchedulerObject

end SnipeIt.App
