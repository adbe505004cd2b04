import SnipeIt.Ddl.SensorLink

/-! # Whole frames

A frame is decoded from what the reads have left in the response buffer. It is
one response of the device if only the read of the attempt has written there,
and has written a whole response.
-/

namespace SnipeIt.Ddl
open ActiveObject Hal Support

/-- `resp_frame` holds one complete response, which the read of the attempt has delivered. -/
def HoldsResponse (m : Module) (attempt : ℕ) (respFrame : List (Option FrameByte)) : Prop :=
  ∃ response, respFrame =
    (responseBytes (frameSize m) response).map fun byte => some ⟨attempt, byte⟩

/-- No other read into `resp_frame` is in flight either. -/
def Decoding.Whole (m : Module) (d : Decoding) : Prop :=
  d.outstanding = [] ∧ HoldsResponse m d.attempt d.respFrame

namespace SensorLink

def received (l : SensorLink) : ℕ := l.queue.countP (·.event = .frameReceived)

/-- The entry is a read into `resp_frame` of an attempt. -/
def readAttempt (l : SensorLink) (n : ℕ) : Option ℕ :=
  (l.driver.inflight[n]?).bind fun entry => entry.operation.bind l.reads

/-- The driver can keep its slots exact. When the read state submits its read, no received frame is
queued and no outstanding read has received something. A read that receives something receives one
complete response, while its attempt is going on, and is the only one that is outstanding when it
completes. -/
def readFits (entries : ℕ) (m : Module) (l : SensorLink) (act : LinkAct) : Bool :=
  (l.driverAct act).all (fun call => l.driver.Fits entries call) &&
  match act, l.thread with
  | .threadCall _, .running (.uartRead _ _ :: _) =>
    l.received = 0 && l.outstandingReads.all (· ∉ l.delivered)
  | .deliver n bytes, _ =>
    l.readAttempt n = some l.history.attempt &&
      bytes.any fun byte => bytes = responseBytes (frameSize m) byte.response
  | .complete n true, _ => (l.readAttempt n).isNone || l.outstandingReads.length = 1
  | _, _ => true

/-- The sensor waits for the frame of a read that it has submitted. -/
def AwaitsFrame (l : SensorLink) : Prop :=
  ∃ s calls, l.machine.sensor? = some s ∧ s.state = .read ∧ l.thread = .running calls ∧
    ∀ device callback, .uartRead device callback ∉ calls

/-- With a received frame that is queued, no read is outstanding any more. What was received is a
complete response. -/
structure OneRead (m : Module) (l : SensorLink) : Prop where
  last : 0 < l.received → l.outstandingReads = []
  arrived : 0 < l.received ∨ (∃ number ∈ l.outstandingReads, number ∈ l.delivered) →
    HoldsResponse m l.history.attempt l.respFrame

/-- The slots are exact, and the callbacks that post a received frame are those of the reads. -/
structure OwnReads (l : SensorLink) : Prop where
  owned : l.driver.Owned
  callbacks : ∀ ref, ∀ c ∈ (l.driver.slots ref).callback, c.1 < l.driver.operations ∧
    ∀ sent, c.2 = .post sent → sent.event = .frameReceived → (l.reads c.1).isSome = true
  delivered : ∀ number ∈ l.delivered, number < l.driver.operations

structure WholeFrames (m : Module) (l : SensorLink) : Prop where
  own : l.OwnReads
  size : l.respFrame.length = frameSize m
  awaits : l.AwaitsFrame → OneRead m l
  decodings : ∀ d ∈ l.history.decodings, d.Whole m

variable {m : Module} {l k : SensorLink} {entries : ℕ}

theorem init_wholeFrames (m : Module) : WholeFrames m (init m) where
  own := ⟨Driver.init_owned, fun _ _ h => (by cases h), fun _ h => (List.not_mem_nil h).elim⟩
  size := List.length_replicate
  awaits h := by
    obtain ⟨_, _, _, _, hthread, _⟩ := h
    cases hthread
  decodings _ h := (List.not_mem_nil h).elim

theorem AwaitsFrame.congr (h : k.AwaitsFrame) (hmachine : k.machine = l.machine)
    (hthread : k.thread = l.thread) : l.AwaitsFrame := by
  unfold AwaitsFrame at h ⊢
  rwa [hmachine, hthread] at h

theorem OneRead.fewer (h : OneRead m l)
    (hsub : ∀ number ∈ k.outstandingReads, number ∈ l.outstandingReads)
    (hreceived : k.received ≤ l.received) (hdelivered : k.delivered = l.delivered)
    (hframe : k.respFrame = l.respFrame) (hattempt : k.history.attempt = l.history.attempt) :
    OneRead m k where
  last hpos := by
    refine List.eq_nil_iff_forall_not_mem.mpr fun number hnumber => ?_
    have hmem := hsub number hnumber
    rw [h.last (hpos.trans_le hreceived)] at hmem
    cases hmem
  arrived harrived := by
    rw [hframe, hattempt]
    refine h.arrived ?_
    rcases harrived with hpos | ⟨number, hnumber, hmem⟩
    · exact .inl (hpos.trans_le hreceived)
    · exact .inr ⟨number, hsub number hnumber, hdelivered ▸ hmem⟩

theorem received_push (l : SensorLink) {sent : Sent} (h : sent.event ≠ .frameReceived) :
    (l.push sent).received = l.received := by
  unfold received
  rcases l.push_queue sent with hsame | happend
  · rw [hsame]
  · rw [happend, List.countP_append]
    simp [h]

@[simp] theorem push_outstandingReads (l : SensorLink) (sent : Sent) :
    (l.push sent).outstandingReads = l.outstandingReads := by
  simp [outstandingReads]

/-- A step that leaves the driver and the buffer alone. -/
theorem WholeFrames.same (h : WholeFrames m l) (hdriver : k.driver = l.driver)
    (hreads : k.reads = l.reads) (hdelivered : k.delivered = l.delivered)
    (hframe : k.respFrame = l.respFrame) (hattempt : k.history.attempt = l.history.attempt)
    (hdecodings : ∀ d ∈ k.history.decodings, d.Whole m) (hreceived : k.received ≤ l.received)
    (hawaits : k.AwaitsFrame → l.AwaitsFrame) : WholeFrames m k where
  own := by
    refine ⟨hdriver ▸ h.own.owned, ?_, ?_⟩
    · rw [hdriver, hreads]
      exact h.own.callbacks
    · rw [hdriver, hdelivered]
      exact h.own.delivered
  size := hframe ▸ h.size
  awaits hk := by
    have hsame : k.outstandingReads = l.outstandingReads := by
      rw [outstandingReads, outstandingReads, hdriver, hreads]
    exact (h.awaits (hawaits hk)).fewer (fun _ hnumber => hsame ▸ hnumber) hreceived hdelivered
      hframe hattempt
  decodings := hdecodings

theorem WholeFrames.push (h : WholeFrames m l) {sent : Sent}
    (hsent : sent.event ≠ .frameReceived) : WholeFrames m (l.push sent) :=
  h.same (by simp) (by simp) (by simp) (by simp) (by simp) (by simpa using h.decodings)
    (received_push l hsent).le fun hk => hk.congr (by simp) (by simp)

/-! ## Transfers -/

theorem OwnReads.young (h : l.OwnReads) {number : ℕ} (hnumber : number ∈ l.driver.outstanding) :
    number < l.driver.operations :=
  h.owned.young number (h.owned.outstanding_eq ▸ hnumber)

theorem OwnReads.reads_transfer (h : l.OwnReads) (attempt : Option ℕ) {number : ℕ}
    (hnumber : number ∈ l.driver.outstanding) :
    Function.update l.reads l.driver.operations attempt number = l.reads number :=
  Function.update_of_ne (h.young hnumber).ne _ _

/-- A transfer adds at most itself to the outstanding reads, if it is one. -/
theorem OwnReads.outstandingReads_transfer (h : l.OwnReads) (entries device : ℕ) (buffer : Bool)
    (callback : Option UartCallback) (attempt : Option ℕ) (submits : Bool) :
    (l.transfer entries device buffer callback attempt submits).outstandingReads =
        l.outstandingReads ∨
      attempt.isSome = true ∧
        (l.transfer entries device buffer callback attempt submits).outstandingReads =
          l.outstandingReads ++ [l.driver.operations] := by
  have hold : l.driver.outstanding.filter (fun number =>
      (Function.update l.reads l.driver.operations attempt number).isSome) = l.outstandingReads :=
    List.filter_congr fun number hnumber => by rw [h.reads_transfer attempt hnumber]
  have hdriver : (l.driver.transfer entries device buffer callback submits).2.outstanding =
      l.driver.outstanding ∨ _ := Driver.transfer_outstanding device buffer callback submits
  rcases hdriver with hsame | happend
  · left
    simp only [outstandingReads, SensorLink.transfer, hsame]
    exact hold
  · simp only [outstandingReads, SensorLink.transfer, happend, List.filter_append]
    rw [hold]
    cases attempt with
    | none => exact .inl (by simp [outstandingReads])
    | some attempt => exact .inr ⟨rfl, by simp [outstandingReads]⟩

theorem OwnReads.transfer (h : l.OwnReads) {device : ℕ} {buffer submits : Bool}
    {callback : Option UartCallback} {attempt : Option ℕ}
    (howned : (l.driver.transfer entries device buffer callback submits).2.Owned)
    (hcallback : ∀ sent, .post sent ∈ callback → sent.event = .frameReceived →
      attempt.isSome = true) :
    (l.transfer entries device buffer callback attempt submits).OwnReads := by
  refine ⟨howned, fun ref c hc => ?_, fun number hnumber => ?_⟩
  · rcases Driver.transfer_callback hc with hold | ⟨hnumber, hnew, hoperations⟩
    · obtain ⟨hlt, hread⟩ := h.callbacks ref c hold
      refine ⟨hlt.trans_le (Driver.transfer_operations ..), fun sent hsent hevent => ?_⟩
      rw [show (l.transfer entries device buffer callback attempt submits).reads c.1 = l.reads c.1
        from Function.update_of_ne hlt.ne _ _]
      exact hread sent hsent hevent
    · refine ⟨?_, fun sent hsent hevent => ?_⟩
      · rw [hnumber]
        exact (Nat.lt_succ_self _).trans_eq hoperations.symm
      · rw [hnumber, show (l.transfer entries device buffer callback attempt submits).reads
          l.driver.operations = attempt from Function.update_self ..]
        exact hcallback sent (hsent ▸ hnew) hevent
  · exact (h.delivered number hnumber).trans_le (Driver.transfer_operations ..)

/-- A transfer that does not read into `resp_frame`. -/
theorem WholeFrames.transfer (h : WholeFrames m l) {device : ℕ} {buffer submits : Bool}
    {callback : Option UartCallback}
    (howned : (l.driver.transfer entries device buffer callback submits).2.Owned)
    (hcallback : ∀ sent, .post sent ∈ callback → sent.event ≠ .frameReceived) :
    WholeFrames m (l.transfer entries device buffer callback none submits) := by
  refine ⟨h.own.transfer howned fun sent hsent hevent => absurd hevent (hcallback sent hsent),
    h.size, fun hk => ?_, h.decodings⟩
  have houtstanding : (l.transfer entries device buffer callback none submits).outstandingReads =
      l.outstandingReads := by
    rcases h.own.outstandingReads_transfer entries device buffer callback none submits with
      hsame | ⟨hsome, -⟩
    · exact hsame
    · cases hsome
  exact (h.awaits hk).fewer (fun _ hnumber => houtstanding ▸ hnumber) le_rfl rfl rfl rfl

/-- The read of an attempt, when no received frame is queued and the other reads have received
nothing. -/
theorem OwnReads.read (h : l.OwnReads) (hreceived : l.received = 0)
    (hnothing : ∀ number ∈ l.outstandingReads, number ∉ l.delivered) {device : ℕ}
    {buffer submits : Bool} {callback : Option UartCallback} {attempt : Option ℕ} :
    OneRead m (l.transfer entries device buffer callback attempt submits) := by
  have hsame : (l.transfer entries device buffer callback attempt submits).received = 0 := hreceived
  refine ⟨fun hpos => absurd hpos (by omega), ?_⟩
  rintro (hpos | ⟨number, hnumber, hdelivered⟩)
  · omega
  · rcases h.outstandingReads_transfer entries device buffer callback attempt submits with
      hold | ⟨-, hnew⟩
    · exact absurd hdelivered (hnothing number (hold ▸ hnumber))
    · rw [hnew] at hnumber
      rcases List.mem_append.mp hnumber with hold | hself
      · exact absurd hdelivered (hnothing number hold)
      · rw [List.mem_singleton] at hself
        exact absurd (h.delivered number hdelivered) (hself ▸ Nat.lt_irrefl _)

theorem WholeFrames.abort (h : WholeFrames m l) (device : ℕ) (submits : Bool) :
    WholeFrames m { l with driver := (l.driver.abort entries device submits).2 } := by
  have hsame : Driver.Same l.driver (l.driver.abort entries device submits).2 :=
    h.own.owned.abort device submits
  refine ⟨⟨h.own.owned.same hsame, ?_, ?_⟩, h.size, fun hk => ?_, h.decodings⟩
  · simpa using h.own.callbacks
  · simpa using h.own.delivered
  · refine (h.awaits hk).fewer (fun number hnumber => ?_) le_rfl rfl rfl rfl
    simp only [outstandingReads] at hnumber ⊢
    rwa [h.own.owned.outstanding_same hsame] at hnumber

/-! ## The device -/

theorem WholeFrames.deliver (h : WholeFrames m l) {n number attempt response : ℕ}
    {bytes : List ResponseByte} {entry : RingEntry}
    (hentry : l.driver.inflight[n]? = some entry) (hnumber : entry.operation = some number)
    (hcurrent : attempt = l.history.attempt)
    (hbytes : bytes = responseBytes (frameSize m) response) :
    WholeFrames m { l with
      delivered := number :: l.delivered
      respFrame :=
        bytes.map (fun byte => some ⟨attempt, byte⟩) ++ l.respFrame.drop bytes.length } := by
  have houtstanding : number ∈ l.driver.outstanding :=
    List.mem_filterMap.mpr ⟨entry, List.mem_append_left _ (List.mem_of_getElem? hentry), hnumber⟩
  have hlength : bytes.length = frameSize m := by simp [hbytes, responseBytes]
  refine ⟨⟨h.own.owned, h.own.callbacks, fun other hother => ?_⟩, ?_, fun hk => ?_, h.decodings⟩
  · rcases List.mem_cons.mp hother with rfl | hold
    · exact h.own.young houtstanding
    · exact h.own.delivered other hold
  · rw [List.length_append, List.length_map, List.length_drop, h.size]
    omega
  · refine ⟨(h.awaits hk).last, fun _ => ⟨response, ?_⟩⟩
    rw [List.drop_of_length_le (h.size.trans hlength.symm).le, List.append_nil, hcurrent, hbytes]

theorem OwnReads.complete (h : l.OwnReads) {n : ℕ} {positive : Bool} {driver : Driver UartCallback}
    (hcomplete : l.driver.complete n positive = some driver) (howned : driver.Owned) :
    OwnReads { l with driver } := by
  have hoperations := Driver.complete_operations hcomplete
  refine ⟨howned, fun ref c hc => ?_, fun number hnumber => ?_⟩
  · rw [show ({ l with driver } : SensorLink).driver = driver from rfl,
      Driver.complete_callback hcomplete] at hc
    rw [hoperations]
    exact h.callbacks ref c hc
  · rw [hoperations]
    exact h.delivered number hnumber

/-- A completion takes its own read, if it is one, from those that are outstanding. -/
theorem complete_outstandingReads {n : ℕ} {positive : Bool} {driver : Driver UartCallback}
    (hcomplete : l.driver.complete n positive = some driver) :
    ∃ entry, l.driver.inflight[n]? = some entry ∧
      ((entry.operation.toList.filter fun number => (l.reads number).isSome) ++
        outstandingReads { l with driver }).Perm l.outstandingReads := by
  obtain ⟨entry, hentry, hperm⟩ := Driver.complete_outstanding hcomplete
  have hfiltered := hperm.filter fun number => (l.reads number).isSome
  rw [List.filter_append] at hfiltered
  exact ⟨entry, hentry, hfiltered⟩

theorem complete_only_read {n number : ℕ} {positive : Bool} {entry : RingEntry}
    {driver : Driver UartCallback} (hcomplete : l.driver.complete n positive = some driver)
    (hentry : l.driver.inflight[n]? = some entry) (hnumber : entry.operation = some number)
    (hread : (l.reads number).isSome = true)
    (hlast : l.readAttempt n = none ∨ l.outstandingReads.length = 1) :
    number ∈ l.outstandingReads ∧ outstandingReads { l with driver } = [] := by
  obtain ⟨entry', hentry', hreads⟩ := complete_outstandingReads hcomplete
  rw [hentry] at hentry'
  cases hentry'
  have hone : [number].filter (fun number => (l.reads number).isSome) = [number] :=
    List.filter_eq_self.mpr fun number hmem => by rw [List.mem_singleton.mp hmem, hread]
  rw [hnumber, Option.toList_some, hone] at hreads
  refine ⟨hreads.subset (List.mem_append_left _ (List.mem_singleton_self _)), ?_⟩
  have hattempt : l.readAttempt n = l.reads number := by simp [readAttempt, hentry, hnumber]
  rcases hlast with hother | hlength
  · rw [← hattempt, hother] at hread
    cases hread
  · have hsum := hreads.length_eq
    rw [List.length_append, List.length_singleton] at hsum
    exact List.length_eq_zero_iff.mp (by omega)

theorem WholeFrames.complete (h : WholeFrames m l) {n : ℕ} {positive : Bool}
    {driver : Driver UartCallback} (hresults : l.Results n positive)
    (hcomplete : l.driver.complete n positive = some driver)
    (hlast : positive = true → l.readAttempt n = none ∨ l.outstandingReads.length = 1)
    (howned : ({ l with driver }.callBack (driver.ran.drop l.driver.ran.length)).driver.Owned) :
    WholeFrames m ({ l with driver }.callBack (driver.ran.drop l.driver.ran.length)) := by
  rw [callBack_driver] at howned
  have hown := h.own.complete hcomplete howned
  obtain ⟨entry, hentry, hreads⟩ := complete_outstandingReads hcomplete
  have hsub : ∀ number ∈ outstandingReads { l with driver }, number ∈ l.outstandingReads :=
    fun number hnumber => hreads.subset (List.mem_append_right _ hnumber)
  have hquiet : WholeFrames m { l with driver } :=
    ⟨hown, h.size, fun hk => (h.awaits hk).fewer hsub le_rfl rfl rfl rfl, h.decodings⟩
  rcases callBack_completed hcomplete with hnone | ⟨c, hran, hpositive, ⟨entry', hentry', hnumber⟩,
    ⟨ref, href⟩, sent, hsent, hpush⟩
  · rw [hnone]
    exact hquiet
  · rw [hpush]
    by_cases hframe : sent.event = .frameReceived
    · rw [hentry] at hentry'
      cases hentry'
      have howner : c.owner = c.completed := howned.exact.own c hran
      have hread : (l.reads c.completed).isSome = true := by
        rw [← howner]
        exact (h.own.callbacks ref _ href).2 sent hsent hframe
      have hdelivered : c.completed ∈ l.delivered :=
        (hresults entry hentry c.completed hnumber hread).mp hpositive
      obtain ⟨hmem, hnone⟩ := complete_only_read hcomplete hentry hnumber hread (hlast hpositive)
      refine ⟨⟨?_, ?_, ?_⟩, ?_, fun hk => ?_, ?_⟩
      · simpa using hown.owned
      · simpa using hown.callbacks
      · simpa using hown.delivered
      · simpa using h.size
      · have hl : OneRead m l := h.awaits (hk.congr (by simp) (by simp))
        refine ⟨fun _ => ?_, fun _ => ?_⟩
        · rw [push_outstandingReads]
          exact hnone
        · rw [push_history, push_respFrame]
          exact hl.arrived (.inr ⟨_, hmem, hdelivered⟩)
      · simpa using h.decodings
    · exact hquiet.push hframe

/-! ## The sensor -/

/-- A sensor that awaits a frame after an event has awaited it before, in the same attempt. -/
theorem dispatched_awaits (hthread : l.thread = .running []) {sent : Sent} {queue : List Sent}
    {answers : Answers} {s : Sensor} (hsensor : l.machine.sensor? = some s)
    (h : (SensorLink.dispatched { l with queue } sent answers).AwaitsFrame) :
    (SensorLink.dispatched { l with queue } sent answers).history.attempt = l.history.attempt ∧
      l.AwaitsFrame := by
  obtain ⟨t, calls, ht, hread, hcalls, hnoRead⟩ := h
  have hnew : ¬ EntersRead calls := by
    intro hentered
    obtain ⟨device, hmem⟩ := hentered.reads
    exact hnoRead _ _ hmem
  obtain ⟨hstate, hattempt⟩ :=
    dispatched_reading (l := { l with queue }) hsensor ht hread hcalls hnew
  exact ⟨hattempt, s, [], hsensor, hstate, hthread, fun _ _ => List.not_mem_nil⟩

/-- The frame that an event makes a sensor decode is a whole one. -/
theorem WholeFrames.dispatched_decodings (h : WholeFrames m l) (hthread : l.thread = .running [])
    {sent : Sent} {queue : List Sent} (hqueue : l.queue = sent :: queue) (answers : Answers)
    {s : Sensor} (hsensor : l.machine.sensor? = some s) :
    ∀ d ∈ (SensorLink.dispatched { l with queue } sent answers).history.decodings, d.Whole m := by
  obtain ⟨t, ht, -⟩ := Machine.dispatch_turn hsensor answers sent.event
  have hhistory : (SensorLink.dispatched { l with queue } sent answers).history =
      l.history.note s t (l.machine.dispatch answers sent.event).2 sent answers.frameValid
        ⟨l.history.attempt, l.outstandingReads, l.respFrame⟩ :=
    dispatched_history (l := { l with queue }) hsensor ht
  rw [hhistory]
  simp only [ReadHistory.note]
  split_ifs with hupdate
  · intro d hd
    rcases List.mem_append.mp hd with hold | hnew
    · exact h.decodings d hold
    · have hl := h.awaits ⟨s, [], hsensor, hupdate.1, hthread, fun _ _ => List.not_mem_nil⟩
      have hpos : 0 < l.received := by
        rw [received, hqueue, List.countP_cons_of_pos (by simp [hupdate.2])]
        exact Nat.succ_pos _
      rw [List.mem_singleton.mp hnew]
      exact ⟨hl.last hpos, hl.arrived (.inl hpos)⟩
  · exact h.decodings

theorem WholeFrames.dispatched (h : WholeFrames m l) (hthread : l.thread = .running [])
    {sent : Sent} {queue : List Sent} (hqueue : l.queue = sent :: queue) (answers : Answers) :
    WholeFrames m (SensorLink.dispatched { l with queue } sent answers) := by
  have hreceived : (SensorLink.dispatched { l with queue } sent answers).received ≤ l.received := by
    simp only [received, hqueue, SensorLink.dispatched, List.countP_cons]
    exact Nat.le_add_right _ _
  cases hsensor : l.machine.sensor? with
  | none =>
    obtain ⟨hnone, hhistory⟩ := dispatched_none (l := { l with queue }) hsensor sent answers
    refine h.same rfl rfl rfl rfl (by rw [hhistory]) ?_ hreceived fun hk => ?_
    · rw [hhistory]
      exact h.decodings
    · obtain ⟨s, _, hs, -⟩ := hk
      exact absurd (hnone.symm.trans hs) (by simp)
  | some s =>
    refine ⟨⟨h.own.owned, h.own.callbacks, h.own.delivered⟩, h.size, fun hk => ?_,
      h.dispatched_decodings hthread hqueue answers hsensor⟩
    obtain ⟨hattempt, hl⟩ := dispatched_awaits hthread hsensor hk
    exact (h.awaits hl).fewer (fun _ hnumber => hnumber) hreceived rfl rfl hattempt

/-- A call that is not the submission of a read leaves the waiting to go on. -/
theorem AwaitsFrame.cons (h : k.AwaitsFrame) {c : Call} {calls : List Call}
    (hmachine : k.machine = l.machine) (hthread : l.thread = .running (c :: calls))
    (hk : k.thread = .running calls) (hc : ∀ device callback, c ≠ .uartRead device callback) :
    l.AwaitsFrame := by
  obtain ⟨s, calls', hs, hread, hcalls, hnoRead⟩ := h
  rw [hk] at hcalls
  cases hcalls
  refine ⟨s, c :: calls, hmachine ▸ hs, hread, hthread, fun device callback hmem => ?_⟩
  rcases List.mem_cons.mp hmem with heq | hrest
  · exact hc device callback heq.symm
  · exact hnoRead device callback hrest

theorem WholeFrames.called (h : WholeFrames m l) {c : Call} {calls : List Call}
    (hthread : l.thread = .running (c :: calls)) (hc : c.Of m) {submits : Bool}
    (hfits : l.readFits entries m (.threadCall submits) = true)
    (howned : (call entries { l with thread := .running calls } submits c).driver.Owned) :
    WholeFrames m (call entries { l with thread := .running calls } submits c) := by
  -- the same state before the call, from which the read is not pending any more
  have hl (hother : ∀ device callback, c ≠ .uartRead device callback) :
      WholeFrames m { l with thread := .running calls } :=
    h.same rfl rfl rfl rfl rfl h.decodings le_rfl fun hk => hk.cons rfl hthread rfl hother
  cases c with
  | uartWrite device callback =>
    refine (hl (by simp)).transfer howned fun sent hsent => ?_
    obtain ⟨event, hevent, heq⟩ := Option.map_eq_some_iff.mp hsent
    cases heq
    simp [hc.2 event hevent]
  | uartRead device callback =>
    simp only [readFits, hthread, Bool.and_eq_true, decide_eq_true_eq, List.all_eq_true] at hfits
    obtain ⟨-, hreceived, hnothing⟩ := hfits
    have hown : OwnReads { l with thread := .running calls } :=
      ⟨h.own.owned, h.own.callbacks, h.own.delivered⟩
    exact ⟨hown.transfer howned fun _ _ _ => rfl, h.size, fun _ => hown.read hreceived hnothing,
      h.decodings⟩
  | uartAbort device => exact (hl (by simp)).abort device.index submits
  | timerInit | timerArm | timerDisarm | publish =>
    exact (hl (by simp)).same rfl rfl rfl rfl rfl h.decodings le_rfl fun hk => hk

theorem WholeFrames.step (h : WholeFrames m l) (htyped : Typed m l) {act : LinkAct}
    (hstep : Step entries m l act k) (hfits : l.readFits entries m act = true) :
    WholeFrames m k := by
  have howned : k.driver.Owned := by
    have hdriver := (Bool.and_eq_true_iff.mp hfits).1
    rcases step_driver hstep with ⟨-, hsame⟩ | ⟨call, hcall, hmoves⟩
    · exact hsame ▸ h.own.owned
    · rw [hcall] at hdriver
      exact (h.own.owned.step hmoves (of_decide_eq_true hdriver)).1
  cases step_does hstep with
  | post hevent => exact h.push (posted_ne hevent).2
  | @start answers hcreated =>
    refine ⟨⟨h.own.owned, h.own.callbacks, h.own.delivered⟩, h.size, fun hawaits => ?_, h.decodings⟩
    obtain ⟨s, _, hs, hread, -⟩ := hawaits
    change (l.machine.init answers).1.sensor? = some s at hs
    rw [htyped.created hcreated] at hs
    exact absurd hread (Machine.init_sensor hs).2
  | leave =>
    refine ⟨⟨h.own.owned, h.own.callbacks, h.own.delivered⟩, h.size, fun hawaits => ?_,
      h.decodings⟩
    obtain ⟨_, _, _, _, hthread, _⟩ := hawaits
    cases hthread
  | dispatch hthread hqueue => exact h.dispatched hthread hqueue _
  | call hthread =>
    exact h.called hthread (htyped.calls _ hthread _ List.mem_cons_self) hfits howned
  | expire => exact h.same rfl rfl rfl rfl rfl h.decodings le_rfl fun hk => hk
  | @handle n =>
    have hl : WholeFrames m { l with handlers := l.handlers.eraseIdx n } :=
      h.same rfl rfl rfl rfl rfl h.decodings le_rfl fun hk => hk
    exact hl.push (by simp)
  | transfer =>
    exact h.transfer howned fun sent hsent => by split_ifs at hsent <;> simp at hsent
  | @abort device submits => exact h.abort device submits
  | deliver hentry hnumber hattempt =>
    simp only [readFits, Bool.and_eq_true, List.any_eq_true, decide_eq_true_eq, readAttempt,
      hentry, hnumber, hattempt, Option.bind_some, Option.some.injEq] at hfits
    obtain ⟨-, hcurrent, byte, -, hbytes⟩ := hfits
    exact h.deliver hentry hnumber hcurrent hbytes
  | complete hresults hcomplete =>
    refine h.complete hresults hcomplete (fun hpositive => ?_) howned
    subst hpositive
    simpa [readFits] using (Bool.and_eq_true_iff.mp hfits).2

/-- Whole frames: in every run in which the driver can keep its slots exact, the read state submits
its read only when no received frame is queued and no outstanding read has received something, and a
read that receives something receives one complete response while its attempt is going on and is the
only one left when it completes, the update state finds one complete response, which the read of the
attempt has delivered, and no read that could change it. -/
theorem updates_find_whole_frames {acts : List LinkAct}
    (h : Run (Guarded (readFits entries m · ·) (Step entries m)) (init m) acts l) :
    ∀ d ∈ l.history.decodings, d.Whole m := by
  have hinv := h.invariant (P := fun l => Typed m l ∧ WholeFrames m l)
    ⟨init_typed m, init_wholeFrames m⟩
    fun l act k hl hstep => ⟨hl.1.step hstep.2, hl.2.step hl.1 hstep.2 hstep.1⟩
  exact hinv.2.decodings

/-- The first attempt times out. Its read is still outstanding when that of the second one is
submitted, which is answered when the first one has been cancelled. -/
def answeredAfterTimeout : List LinkAct :=
  firstAttempt ++ timedOut 5 ++ [.complete 0 true, .complete 0 false, .complete 0 false] ++
    answered (responseBytes 16 0) ++ [.threadPop ⟨true, true⟩]

theorem updates_find_whole_frames_answered :
    ∃ l, Run (Guarded (readFits 32 .distance · ·) (Step 32 .distance)) (init .distance)
        answeredAfterTimeout l ∧
      l.history.decodings.length = 1 ∧ ∀ d ∈ l.history.decodings, d.Whole .distance := by
  have hdecoded : ((exec (fun l act =>
      if readFits 32 .distance l act then l.apply 32 .distance act else none) (init .distance)
      answeredAfterTimeout).map (·.history.decodings.length)) = some 1 := by decide
  obtain ⟨l, hexec, hlength⟩ := Option.map_eq_some_iff.mp hdecoded
  have hrun : Run (Guarded (readFits 32 .distance · ·) (Step 32 .distance)) (init .distance)
      answeredAfterTimeout l := Run.of_exec_guarded hexec
  exact ⟨l, hrun, hlength, updates_find_whole_frames hrun⟩

/-- The first response is rejected, and the second read completes when it has received half of the
second one. -/
def shortRead : List LinkAct :=
  firstAttempt ++ answered (responseBytes 16 0) ++ [.threadPop ⟨true, false⟩] ++
    List.replicate 4 (.threadCall true) ++ answered ((responseBytes 16 1).take 8) ++
    [.threadPop ⟨true, true⟩]

/-- What the update state then finds: half of each response. -/
def mixedFrame : List (Option FrameByte) :=
  ((responseBytes 16 1).take 8).map (some ⟨2, ·⟩) ++
    ((responseBytes 16 0).drop 8).map (some ⟨1, ·⟩)

theorem mixed_frame_decoded :
    ∃ l, Run (Step 32 .distance) (init .distance) shortRead l ∧
      l.history.decodings[1]? = some ⟨2, [], mixedFrame⟩ ∧
      ¬ ∀ d ∈ l.history.decodings, d.Whole .distance := by
  have hmixed : ((exec (fun l act => l.apply 32 .distance act) (init .distance) shortRead).map
      (·.history.decodings[1]?)) = some (some ⟨2, [], mixedFrame⟩) := by decide
  obtain ⟨l, hexec, hdecoding⟩ := Option.map_eq_some_iff.mp hmixed
  have hrun : Run (Step 32 .distance) (init .distance) shortRead l := Run.of_exec hexec
  refine ⟨l, hrun, hdecoding, fun hwhole => ?_⟩
  obtain ⟨-, response, hframe⟩ := hwhole _ (List.mem_of_getElem? hdecoding)
  have hattempt := congrArg (fun frame => (frame[8]?).join.map FrameByte.attempt) hframe
  simp [mixedFrame, responseBytes, frameSize] at hattempt

end SensorLink

end SnipeIt.Ddl
