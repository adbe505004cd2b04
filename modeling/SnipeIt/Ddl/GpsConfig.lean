import SnipeIt.ActiveObject.Machines
import SnipeIt.Ddl.Frames
import SnipeIt.Support.Run

/-! # The configuration writes of the GPS

One transmit buffer holds the frame of the configuration step that is being
written. The machine goes on to the next step on the event that the completion
of the write has posted.
-/

namespace SnipeIt.Ddl
open ActiveObject Hal Support

structure ConfigStep where
  msgClass : UInt8
  msgId : UInt8
  payloadLength : UInt8
  payload : List UInt8

def clsCfg : UInt8 := 0x06

def idCfgMsg : UInt8 := 0x01

def idCfgRate : UInt8 := 0x08

def nmeaClass : UInt8 := 0xF0

/-- A step that turns an NMEA message off. -/
def nmeaOff (message : UInt8) : ConfigStep := ⟨clsCfg, idCfgMsg, 3, [nmeaClass, message, 0x00]⟩

def configSequence : List ConfigStep :=
  [nmeaOff 0x00, nmeaOff 0x01, nmeaOff 0x02, nmeaOff 0x03, nmeaOff 0x04, nmeaOff 0x05,
    nmeaOff 0x41, ⟨clsCfg, idCfgRate, 6, [0xE8, 0x03, 0x01, 0x00, 0x01, 0x00]⟩]

/-- The bytes of a frame between the sync bytes and the checksum. -/
def ConfigStep.body (step : ConfigStep) : List UInt8 :=
  [step.msgClass, step.msgId, step.payloadLength, 0x00] ++
    step.payload.take step.payloadLength.toNat

def configFrame (step : ConfigStep) : List UInt8 :=
  [sync1, sync2] ++ step.body ++ [(ubxChecksum step.body).1, (ubxChecksum step.body).2]

/-- A call of `config_send_current_step`: the index that it reads, how many configuration writes
have not completed, and the frame that it hands to `hal_uart_write`. -/
structure Send where
  step : ℕ
  outstanding : ℕ
  frame : Option (List UInt8)

/-- The GPS machine with its configuration writes. -/
structure ConfigWorld where
  gps : Gps
  transmitBuf : List UInt8
  /-- The steps of the writes that are in the ring, and of those in flight. -/
  prepared : List ℕ
  inflight : List ℕ
  /-- The queued events, and how many writes have completed with a positive count. -/
  queued : ℕ
  completed : ℕ
  sends : List Send
  /-- For each poll command, how many writes had completed. -/
  polls : List ℕ

/-- An event that is dispatched, or what becomes of the writes. -/
inductive ConfigAct where
  | dispatch (event : Event) (frameValid : Bool) (answer : Submission)
  | configured (answer : Submission)
  | submitted
  | complete (n : ℕ) (positive posted : Bool)

namespace ConfigWorld

def configSendCurrentStep (w : ConfigWorld) (answer : Submission) : ConfigWorld :=
  let frame := configSequence[w.gps.configStep]?.map configFrame
  let w := { w with
    transmitBuf := match frame with
      | some bytes => bytes ++ w.transmitBuf.drop bytes.length
      | none => w.transmitBuf
    sends := w.sends ++ [⟨w.gps.configStep, (w.prepared ++ w.inflight).length, frame⟩] }
  match answer with
  | .noEntry => w
  | .refused => { w with prepared := w.prepared ++ [w.gps.configStep] }
  | .done =>
    { w with prepared := [], inflight := w.inflight ++ (w.prepared ++ [w.gps.configStep]) }

/-- The writes among the calls of a handler: a configuration step or the poll command. -/
def perform (w : ConfigWorld) (answer : Submission) : List Call → ConfigWorld
  | [] => w
  | .uartWrite _ (some .configured) :: calls =>
    (w.configSendCurrentStep answer).perform answer calls
  | .uartWrite _ none :: calls =>
    { w with polls := w.polls ++ [w.completed] }.perform answer calls
  | _ :: calls => w.perform answer calls

def start (initOk : Bool) (transmitBuf : List UInt8) (answer : Submission) : ConfigWorld :=
  let (gps, calls) := Gps.init ⟨⟨.init, 0, false⟩, 0⟩ ⟨initOk, false⟩
  perform ⟨gps, transmitBuf, [], [], 0, 0, [], []⟩ answer calls

/-- An event is dispatched and the writes of its handler are made. -/
def dispatch (w : ConfigWorld) (event : Event) (frameValid : Bool) (answer : Submission) :
    ConfigWorld :=
  let (gps, calls) := w.gps.dispatch ⟨true, frameValid⟩ event
  { w with gps }.perform answer calls

def apply (w : ConfigWorld) : ConfigAct → Option ConfigWorld
  | .dispatch event frameValid answer =>
    if event = .configured then none else some (w.dispatch event frameValid answer)
  | .configured answer =>
    if 0 < w.queued then some ({ w with queued := w.queued - 1 }.dispatch .configured true answer)
    else none
  | .submitted => some { w with prepared := [], inflight := w.inflight ++ w.prepared }
  | .complete n positive posted =>
    if n < w.inflight.length then
      some { w with
        inflight := w.inflight.eraseIdx n
        completed := if positive then w.completed + 1 else w.completed
        queued := if positive && posted then w.queued + 1 else w.queued }
    else none

def Step (w : ConfigWorld) (act : ConfigAct) (v : ConfigWorld) : Prop := w.apply act = some v

def outstanding (w : ConfigWorld) : List ℕ := w.prepared ++ w.inflight

/-- The frames are written in order and each at most once, from steps of the sequence, into a
buffer that no write is using, which holds the frame of the write that does; and the poll command is
only written when every configuration write has completed. -/
structure InSequence (w : ConfigWorld) : Prop where
  frames : w.sends.map (·.frame) = (configSequence.take w.sends.length).map (some ∘ configFrame)
  index : ∀ send ∈ w.sends, send.step < configSequence.length
  owned : ∀ send ∈ w.sends, send.outstanding = 0
  held : ∀ k ∈ w.outstanding, ∃ step ∈ configSequence[k]?,
    w.transmitBuf.take (configFrame step).length = configFrame step
  polls : ∀ completed ∈ w.polls, completed = Gps.cfgSeqLen

def Progress (w : ConfigWorld) : Prop :=
  match w.gps.sensor.state with
  | .init =>
    w.gps.configStep < Gps.cfgSeqLen ∧ w.sends.length = w.gps.configStep + 1 ∧
      w.outstanding.length + w.queued ≤ 1 ∧
      (0 < w.outstanding.length → w.completed = w.gps.configStep) ∧
      (0 < w.queued → w.completed = w.gps.configStep + 1)
  | .error => w.outstanding = [] ∧ w.queued = 0
  | _ => w.outstanding = [] ∧ w.queued = 0 ∧ w.completed = Gps.cfgSeqLen

variable {w : ConfigWorld} {answer : Submission}

/-! ## One write -/

/-- A step is written while no write is outstanding. -/
theorem InSequence.send (h : w.InSequence) (hfree : w.outstanding = [])
    (hstep : w.gps.configStep < configSequence.length)
    (hsends : w.sends.length = w.gps.configStep) (answer : Submission) :
    (w.configSendCurrentStep answer).InSequence := by
  obtain ⟨hprepared, hinflight⟩ := List.append_eq_nil_iff.mp hfree
  have hget : configSequence[w.gps.configStep]? = some configSequence[w.gps.configStep] :=
    List.getElem?_eq_getElem hstep
  have hsends' : (w.configSendCurrentStep answer).sends = w.sends ++
      [⟨w.gps.configStep, 0, some (configFrame configSequence[w.gps.configStep])⟩] := by
    cases answer <;> simp [configSendCurrentStep, hget, hprepared, hinflight]
  have hbuf : (w.configSendCurrentStep answer).transmitBuf.take
      (configFrame configSequence[w.gps.configStep]).length =
        configFrame configSequence[w.gps.configStep] := by
    cases answer <;> simp [configSendCurrentStep, hget]
  have houtstanding : ∀ k ∈ (w.configSendCurrentStep answer).outstanding,
      k = w.gps.configStep := by
    cases answer <;> simp [configSendCurrentStep, outstanding, hprepared, hinflight]
  have hpolls : (w.configSendCurrentStep answer).polls = w.polls := by
    cases answer <;> rfl
  constructor
  case frames =>
    rw [hsends', List.map_append, h.frames, List.length_append, hsends, List.length_singleton,
      List.take_add_one, hget, List.map_append]
    rfl
  case index =>
    rw [hsends']
    intro send hsend
    rcases List.mem_append.mp hsend with hold | hnew
    · exact h.index send hold
    · rwa [List.mem_singleton.mp hnew]
  case owned =>
    rw [hsends']
    intro send hsend
    rcases List.mem_append.mp hsend with hold | hnew
    · exact h.owned send hold
    · rw [List.mem_singleton.mp hnew]
  case held =>
    intro k hk
    rw [houtstanding k hk]
    exact ⟨_, hget, hbuf⟩
  case polls =>
    rw [hpolls]
    exact h.polls

/-- What a write of a step leaves: at most this write is outstanding. -/
theorem configSendCurrentStep_left (hfree : w.outstanding = []) (answer : Submission) :
    (w.configSendCurrentStep answer).gps = w.gps ∧
      (w.configSendCurrentStep answer).sends.length = w.sends.length + 1 ∧
      (w.configSendCurrentStep answer).outstanding.length ≤ 1 ∧
      (w.configSendCurrentStep answer).queued = w.queued ∧
      (w.configSendCurrentStep answer).completed = w.completed := by
  obtain ⟨hprepared, hinflight⟩ := List.append_eq_nil_iff.mp hfree
  cases answer <;> simp [configSendCurrentStep, outstanding, hprepared, hinflight]

/-- Without a configuration write, the calls of a handler only poll. -/
theorem perform_polls (w : ConfigWorld) (answer : Submission) {calls : List Call}
    (h : ∀ device, .uartWrite device (some .configured) ∉ calls) :
    ∃ n, w.perform answer calls = { w with polls := w.polls ++ List.replicate n w.completed } := by
  induction calls generalizing w with
  | nil => exact ⟨0, by simp [perform]⟩
  | cons call calls ih =>
    have hrest : ∀ device, .uartWrite device (some .configured) ∉ calls := fun device hmem =>
      h device (List.mem_cons_of_mem _ hmem)
    have hhead : ∀ device, call ≠ .uartWrite device (some .configured) := fun device heq =>
      h device (heq ▸ List.mem_cons_self)
    unfold perform
    split
    · contradiction
    · rename_i hcons
      exact absurd (List.cons.inj hcons).1 (hhead _)
    · rename_i hcons
      rw [← (List.cons.inj hcons).2]
      obtain ⟨n, hn⟩ := ih { w with polls := w.polls ++ [w.completed] } hrest
      refine ⟨n + 1, ?_⟩
      rw [hn, List.replicate_succ, List.append_assoc]
      rfl
    · rename_i hcons
      rw [← (List.cons.inj hcons).2]
      exact ih w hrest

/-- The handlers of the read cycle make no configuration write. -/
theorem dispatch_no_config (device device' : Device) (answers : Answers) (s : Sensor)
    (event : Event) :
    .uartWrite device' (some .configured) ∉ (s.dispatch device answers event).2 := by
  have hretry (t : Sensor) :
      .uartWrite device' (some .configured) ∉ (t.retryHandler device).2 := by
    unfold Sensor.retryHandler
    split_ifs <;> simp [Sensor.enterRead]
  unfold Sensor.dispatch
  split
  · split <;> simp [Sensor.enterRead]
  · split
    · unfold Sensor.enterUpdate
      split_ifs
      · simp
      · simpa using hretry _
    · simp
  · split
    · simpa using hretry s
    · simp
  · simp

/-! ## The sequence of writes -/

/-- Nothing is written, and no more writes are outstanding than before. -/
theorem InSequence.quiet {v : ConfigWorld} (h : w.InSequence) (hsends : v.sends = w.sends)
    (hbuf : v.transmitBuf = w.transmitBuf) (hpolls : v.polls = w.polls)
    (houtstanding : ∀ k ∈ v.outstanding, k ∈ w.outstanding) : v.InSequence where
  frames := hsends ▸ h.frames
  index := hsends ▸ h.index
  owned := hsends ▸ h.owned
  held := fun k hk => hbuf ▸ h.held k (houtstanding k hk)
  polls := hpolls ▸ h.polls

/-- Outside the initial state no write is outstanding and no completion is queued. -/
theorem Progress.idle (h : w.Progress) (hinit : w.gps.sensor.state ≠ .init) :
    w.outstanding = [] ∧ w.queued = 0 := by
  unfold Progress at h
  split at h
  · contradiction
  · exact h
  · exact ⟨h.1, h.2.1⟩

theorem start_keeps (initOk : Bool) (transmitBuf : List UInt8) (answer : Submission) :
    (start initOk transmitBuf answer).InSequence ∧ (start initOk transmitBuf answer).Progress := by
  cases initOk with
  | false =>
    exact ⟨⟨rfl, by simp [start, Gps.init, perform], by simp [start, Gps.init, perform],
      by simp [start, Gps.init, perform, outstanding], by simp [start, Gps.init, perform]⟩,
      rfl, rfl⟩
  | true =>
    let w : ConfigWorld := ⟨⟨⟨.init, 0, false⟩, 0⟩, transmitBuf, [], [], 0, 0, [], []⟩
    have hstart : start true transmitBuf answer = w.configSendCurrentStep answer := rfl
    have hw : w.InSequence := by constructor <;> simp [w, outstanding]
    obtain ⟨hgps, hsends, hone, hqueued, hcompleted⟩ :=
      configSendCurrentStep_left (w := w) rfl answer
    rw [hstart]
    have hindex : 0 < Gps.cfgSeqLen := by decide
    refine ⟨hw.send rfl hindex rfl answer, ?_⟩
    unfold Progress
    rw [hgps, hsends, hqueued, hcompleted]
    exact ⟨hindex, rfl, hone, fun _ => rfl, fun hpos => absurd hpos (Nat.lt_irrefl 0)⟩

theorem dispatch_keeps (h : w.InSequence) (hprogress : w.Progress) {event : Event}
    (hevent : event ≠ .configured) (frameValid : Bool) (answer : Submission) :
    (w.dispatch event frameValid answer).InSequence ∧
      (w.dispatch event frameValid answer).Progress := by
  by_cases hinit : w.gps.sensor.state = .init
  · have hsame : w.dispatch event frameValid answer = w := by
      cases event with
      | configured => contradiction
      | _ => simp [dispatch, Gps.dispatch, hinit, perform]
    rw [hsame]
    exact ⟨h, hprogress⟩
  · obtain ⟨houtstanding, hqueued⟩ := hprogress.idle hinit
    have hafter : (w.gps.sensor.dispatch Gps.device ⟨true, frameValid⟩ event).1.state ≠ .init :=
      Sensor.dispatch_ne_init hinit
    let v : ConfigWorld :=
      { w with gps.sensor := (w.gps.sensor.dispatch Gps.device ⟨true, frameValid⟩ event).1 }
    obtain ⟨n, hn⟩ := v.perform_polls answer fun device =>
      dispatch_no_config Gps.device device ⟨true, frameValid⟩ w.gps.sensor event
    have hdispatch : w.dispatch event frameValid answer =
        { v with polls := v.polls ++ List.replicate n v.completed } := by
      unfold dispatch Gps.dispatch
      rw [if_neg hinit]
      exact hn
    by_cases herror : w.gps.sensor.state = .error
    · have hsame : w.dispatch event frameValid answer = w := by
        cases event <;>
          simp [dispatch, Gps.dispatch, Sensor.dispatch, herror, perform]
      rw [hsame]
      exact ⟨h, hprogress⟩
    · have hcompleted : w.completed = Gps.cfgSeqLen := by
        unfold Progress at hprogress
        split at hprogress
        · contradiction
        · contradiction
        · exact hprogress.2.2
      rw [hdispatch]
      refine ⟨⟨h.frames, h.index, h.owned, h.held, fun completed hmem => ?_⟩, ?_⟩
      · rcases List.mem_append.mp hmem with hold | hnew
        · exact h.polls completed hold
        · rw [List.eq_of_mem_replicate hnew]
          exact hcompleted
      · unfold Progress
        split
        · contradiction
        · exact ⟨houtstanding, hqueued⟩
        · exact ⟨houtstanding, hqueued, hcompleted⟩

/-- The event of a completed write: the next write, or the end of the sequence. -/
theorem configured_keeps (h : w.InSequence) (hprogress : w.Progress) (hqueued : 0 < w.queued)
    (answer : Submission) :
    ({ w with queued := w.queued - 1 }.dispatch .configured true answer).InSequence ∧
      ({ w with queued := w.queued - 1 }.dispatch .configured true answer).Progress := by
  have hinit : w.gps.sensor.state = .init := by
    by_contra hother
    have := (hprogress.idle hother).2
    omega
  unfold Progress at hprogress
  rw [hinit] at hprogress
  obtain ⟨hindex, hsends, hone, -, hcompleted⟩ := hprogress
  have hfree : w.outstanding = [] := List.length_eq_zero_iff.mp (by omega)
  have hlast : w.queued - 1 = 0 := by omega
  rw [hlast]
  by_cases hmore : w.gps.configStep + 1 < Gps.cfgSeqLen
  · let v : ConfigWorld := { w with gps.configStep := w.gps.configStep + 1, queued := 0 }
    have hv : v.InSequence := h.quiet rfl rfl rfl fun k hk => hk
    have hdispatch : { w with queued := 0 }.dispatch .configured true answer =
        v.configSendCurrentStep answer := by
      simp [dispatch, Gps.dispatch, Gps.configured, hinit, hmore, Gps.configSendCurrentStep,
        perform, v]
    obtain ⟨hgps, hsends', hone', hqueued', hcompleted'⟩ :=
      configSendCurrentStep_left (w := v) hfree answer
    rw [hdispatch]
    refine ⟨hv.send hfree hmore hsends answer, ?_⟩
    unfold Progress
    rw [hgps, hsends', hqueued', hcompleted', show v.gps.sensor.state = .init from hinit]
    refine ⟨hmore, ?_, hone', fun _ => hcompleted hqueued,
      fun hpos => absurd hpos (Nat.lt_irrefl 0)⟩
    exact congrArg (· + 1) hsends
  · have hdispatch : { w with queued := 0 }.dispatch .configured true answer =
        { w with gps := ⟨w.gps.sensor.enterIdle, w.gps.configStep + 1⟩, queued := 0 } := by
      simp [dispatch, Gps.dispatch, Gps.configured, hinit, hmore, perform]
    rw [hdispatch]
    refine ⟨h.quiet rfl rfl rfl fun k hk => hk, hfree, rfl, ?_⟩
    have := hcompleted hqueued
    have hend : w.gps.configStep + 1 = Gps.cfgSeqLen := by omega
    rw [← hend]
    exact this

theorem complete_keeps (h : w.InSequence) (hprogress : w.Progress) {n : ℕ}
    (hn : n < w.inflight.length) (positive posted : Bool) :
    let v : ConfigWorld := { w with
      inflight := w.inflight.eraseIdx n
      completed := if positive then w.completed + 1 else w.completed
      queued := if positive && posted then w.queued + 1 else w.queued }
    v.InSequence ∧ v.Progress := by
  intro v
  have hlength : w.outstanding.length = w.prepared.length + w.inflight.length :=
    List.length_append
  have hinit : w.gps.sensor.state = .init := by
    by_contra hother
    have := (hprogress.idle hother).1
    rw [this] at hlength
    simp at hlength
    omega
  have hsub : ∀ k ∈ v.outstanding, k ∈ w.outstanding := fun k hk =>
    (List.mem_append.mp hk).elim (List.mem_append_left _) fun hmem =>
      List.mem_append_right _ (List.mem_of_mem_eraseIdx hmem)
  refine ⟨h.quiet rfl rfl rfl hsub, ?_⟩
  unfold Progress at hprogress
  rw [hinit] at hprogress
  obtain ⟨hindex, hsends, hone, hfirst, -⟩ := hprogress
  have hempty : v.outstanding.length = 0 := by
    have hv : v.outstanding.length = w.prepared.length + (w.inflight.length - 1) := by
      simp [outstanding, v, List.length_eraseIdx_of_lt hn]
    omega
  have hcompleted : w.completed = w.gps.configStep := hfirst (by omega)
  have hqueued : w.queued = 0 := by omega
  unfold Progress
  rw [show v.gps = w.gps from rfl, hinit]
  refine ⟨hindex, hsends, ?_, fun hpos => absurd hpos (by omega), fun hpos => ?_⟩
  · rw [hempty]
    simp only [v, hqueued]
    split <;> decide
  · cases positive with
    | true => simpa [v] using hcompleted
    | false =>
      simp only [v, hqueued] at hpos
      cases hpos

/-- What every step keeps. -/
theorem step_keeps {v : ConfigWorld} {act : ConfigAct} (h : w.InSequence ∧ w.Progress)
    (hstep : Step w act v) : v.InSequence ∧ v.Progress := by
  obtain ⟨hseq, hprogress⟩ := h
  unfold Step at hstep
  cases act with
  | dispatch event frameValid answer =>
    simp only [apply] at hstep
    split_ifs at hstep with hevent
    rw [← Option.some.inj hstep]
    exact dispatch_keeps hseq hprogress hevent frameValid answer
  | configured answer =>
    simp only [apply] at hstep
    split_ifs at hstep with hqueued
    rw [← Option.some.inj hstep]
    exact configured_keeps hseq hprogress hqueued answer
  | submitted =>
    simp only [apply] at hstep
    rw [← Option.some.inj hstep]
    have hperm : (w.inflight ++ w.prepared).Perm w.outstanding := List.perm_append_comm
    refine ⟨hseq.quiet rfl rfl rfl fun k hk => hperm.mem_iff.mp hk, ?_⟩
    have hlength := hperm.length_eq
    have hnil : w.inflight ++ w.prepared = [] ↔ w.outstanding = [] := by
      rw [← List.length_eq_zero_iff, hlength, List.length_eq_zero_iff]
    unfold Progress at hprogress ⊢
    simpa [outstanding, hlength, hnil] using hprogress
  | complete n positive posted =>
    simp only [apply] at hstep
    by_cases hn : n < w.inflight.length
    · rw [if_pos hn] at hstep
      rw [← Option.some.inj hstep]
      exact complete_keeps hseq hprogress hn positive posted
    · rw [if_neg hn] at hstep
      cases hstep

/-- Configuration order and buffer ownership: whatever is dispatched to the machine and whatever
becomes of its writes. -/
theorem configuration_in_sequence {initOk : Bool} {transmitBuf : List UInt8} {answer : Submission}
    {acts : List ConfigAct} {w : ConfigWorld}
    (h : Run Step (start initOk transmitBuf answer) acts w) : w.InSequence :=
  (h.invariant (P := fun w => w.InSequence ∧ w.Progress) (start_keeps initOk transmitBuf answer)
    fun _ _ _ hw hstep => step_keeps hw hstep).1

/-- Every write completes, and the machine is asked for a reading. -/
def configuredThenRead : List ConfigAct :=
  (List.replicate 8 [.complete 0 true true, .configured .done]).flatten ++
    [.dispatch .read true .done]

theorem configuration_in_sequence_read :
    ∃ w, Run Step (start true (List.replicate 24 0) .done) configuredThenRead w ∧
      w.sends.length = 8 ∧ w.polls = [8] ∧ w.InSequence := by
  have hsome : ((exec apply (start true (List.replicate 24 0) .done) configuredThenRead).map
      fun w => (w.sends.length, w.polls)) = some (8, [8]) := by decide
  obtain ⟨w, hexec, hend⟩ := Option.map_eq_some_iff.mp hsome
  have hrun : Run Step (start true (List.replicate 24 0) .done) configuredThenRead w :=
    Run.of_exec hexec
  exact ⟨w, hrun, congrArg Prod.fst hend, congrArg Prod.snd hend, configuration_in_sequence hrun⟩

end ConfigWorld

end SnipeIt.Ddl
