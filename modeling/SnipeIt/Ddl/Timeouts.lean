import SnipeIt.Ddl.SensorLink

/-! # Whose timeout it is

A timeout that was posted before its timer was disarmed stays in the queue, and
the next attempt can take it for its own.
-/

namespace SnipeIt.Ddl
open ActiveObject Hal Support

/-- The timeout that ended the attempt came from the timer that the attempt had armed. -/
def AttemptEnd.Own : AttemptEnd → Prop
  | .timedOut attempt armedBy => armedBy = attempt
  | .rejected _ => True

instance : DecidablePred AttemptEnd.Own
  | .timedOut attempt armedBy => inferInstanceAs (Decidable (armedBy = attempt))
  | .rejected _ => inferInstanceAs (Decidable True)

/-- A cycle that gave up has ended each of its attempts, on the attempt's own timeout or with a
frame that was rejected. -/
structure GaveUp (cycle : List AttemptEnd) : Prop where
  own : ∀ e ∈ cycle, e.Own
  all : ∃ first, cycle.map (·.attempt) = List.range' first Sensor.readRetryMax

structure ReadHistory.OwnEnds (h : ReadHistory) : Prop where
  ends : ∀ e ∈ h.ends, e.Own
  givenUp : ∀ cycle ∈ h.givenUp, GaveUp cycle

namespace SensorLink

/-- When the read state arms its timer, no timeout is queued and no expiry handler is running. -/
def armFits (l : SensorLink) (act : LinkAct) : Bool :=
  match act, l.thread with
  | .threadCall _, .running (.timerArm .once :: _) =>
    l.queue.all (·.event ≠ .timeout) && l.handlers.isEmpty
  | _, _ => true

/-- The sensor waits for an answer under its timer. -/
def Waits (l : SensorLink) : Prop :=
  ∃ s calls, l.machine.sensor? = some s ∧ s.state = .read ∧ l.thread = .running calls ∧
    .timerArm .once ∉ calls

/-- Every timeout that is queued or on its way is of the attempt that is going on. -/
structure OwnTimeouts (l : SensorLink) : Prop where
  queue : ∀ sent ∈ l.queue, sent.event = .timeout → sent.attempt = l.history.attempt
  handlers : ∀ attempt ∈ l.handlers, attempt = l.history.attempt
  timer : ∀ attempt, l.timer = some (some attempt) → attempt = l.history.attempt

/-- The retry counter counts the attempts of the cycle that have ended. -/
structure Counted (h : ReadHistory) (s : Sensor) : Prop where
  idle : s.state = .idle → s.retry = 0
  bound : s.state = .read → s.retry + 1 ≤ Sensor.readRetryMax
  ends : s.state = .read → ∃ first, h.attempt = first + s.retry ∧
    h.ends.map (·.attempt) = List.range' first s.retry

structure Timely (l : SensorLink) : Prop where
  counted : ∀ s, l.machine.sensor? = some s → Counted l.history s
  waits : l.Waits → l.OwnTimeouts
  own : l.history.OwnEnds

variable {m : Module} {l k : SensorLink} {entries : ℕ}

theorem init_timely (m : Module) : Timely (init m) where
  counted s hs := by
    cases m <;> cases hs <;> exact ⟨nofun, nofun, nofun⟩
  waits h := by
    obtain ⟨_, _, _, _, hthread, _⟩ := h
    cases hthread
  own := ⟨fun _ h => (List.not_mem_nil h).elim, fun _ h => (List.not_mem_nil h).elim⟩

/-- A step of another party: the machine and the history stay, and what is queued or on its way
afterwards is the attempt's own if it was before. -/
theorem Timely.other (h : l.Timely) (hmachine : k.machine = l.machine)
    (hhistory : k.history = l.history) (hwaits : k.Waits → l.OwnTimeouts → k.OwnTimeouts)
    (hthread : k.Waits → l.Waits) : k.Timely where
  counted := by
    rw [hmachine, hhistory]
    exact h.counted
  waits hk := hwaits hk (h.waits (hthread hk))
  own := hhistory ▸ h.own

/-- Waiting is a matter of the machine and its thread. -/
theorem Waits.congr (h : k.Waits) (hmachine : k.machine = l.machine)
    (hthread : k.thread = l.thread) : l.Waits := by
  unfold Waits at h ⊢
  rwa [hmachine, hthread] at h

/-- Posting an event that is no timeout, or the attempt's own. -/
theorem Timely.push (h : l.Timely) {sent : Sent}
    (hown : l.Waits → sent.event = .timeout → sent.attempt = l.history.attempt) :
    (l.push sent).Timely := by
  have hsame : (l.push sent).Waits → l.Waits := fun hk => hk.congr (by simp) (by simp)
  refine h.other (by simp) (by simp) (fun hk hl => ⟨fun other hother htimeout => ?_, ?_, ?_⟩) hsame
  · rw [push_history]
    rcases mem_push hother with hold | rfl
    · exact hl.queue other hold htimeout
    · exact hown (hsame hk) htimeout
  · simpa using hl.handlers
  · simpa using hl.timer

/-- A step that leaves the sensor, its queue and its timer alone. -/
theorem Timely.same (h : l.Timely) (hmachine : k.machine = l.machine)
    (hthread : k.thread = l.thread) (hqueue : k.queue = l.queue) (htimer : k.timer = l.timer)
    (hhandlers : k.handlers = l.handlers) (hhistory : k.history = l.history) : k.Timely := by
  refine h.other hmachine hhistory (fun _ hl => ⟨?_, ?_, ?_⟩) fun hk => hk.congr hmachine hthread
  · rw [hqueue, hhistory]
    exact hl.queue
  · rw [hhandlers, hhistory]
    exact hl.handlers
  · rw [htimer, hhistory]
    exact hl.timer

/-! ## What the sensor does -/

theorem ended_own {h : ReadHistory} {sent : Sent} {frameValid : Bool}
    (hown : sent.event = .timeout → sent.attempt = h.attempt) :
    ∀ e ∈ h.ended sent frameValid, e.Own := by
  unfold ReadHistory.ended
  split
  · rename_i htimeout
    simpa [AttemptEnd.Own] using hown htimeout
  · split_ifs <;> simp [AttemptEnd.Own]
  · simp

theorem ended_attempt {h : ReadHistory} {sent : Sent} {frameValid : Bool}
    (hends : EndsAttempt frameValid sent.event) :
    (h.ended sent frameValid).map (·.attempt) = [h.attempt] := by
  unfold ReadHistory.ended
  rcases hends with htimeout | ⟨hframe, hinvalid⟩
  · simp [htimeout, AttemptEnd.attempt]
  · simp [hframe, hinvalid, AttemptEnd.attempt]

theorem ended_nil {h : ReadHistory} {sent : Sent} {frameValid : Bool}
    (hends : sent.event = .frameReceived ∧ frameValid = true ∨
      sent.event ≠ .timeout ∧ sent.event ≠ .frameReceived) :
    h.ended sent frameValid = [] := by
  unfold ReadHistory.ended
  rcases hends with ⟨hframe, hvalid⟩ | ⟨htimeout, hframe⟩
  · simp [hframe, hvalid]
  · split
    · contradiction
    · contradiction
    · rfl

theorem Counted.ended {h : ReadHistory} {s : Sensor} (hcounted : Counted h s)
    (hread : s.state = .read) {sent : Sent} {frameValid : Bool}
    (hends : EndsAttempt frameValid sent.event) :
    ∃ first, h.attempt + 1 = first + (s.retry + 1) ∧
      (h.ends ++ h.ended sent frameValid).map (·.attempt) = List.range' first (s.retry + 1) := by
  obtain ⟨first, hattempt, hmap⟩ := hcounted.ends hread
  refine ⟨first, by omega, ?_⟩
  rw [List.map_append, hmap, ended_attempt hends, List.range'_1_concat, hattempt]

theorem Counted.note {h : ReadHistory} {s t : Sensor} (hcounted : Counted h s) (hends : h.OwnEnds)
    {sent : Sent} {frameValid : Bool} {calls : List Call}
    (hturn : Turn frameValid s sent.event t calls)
    (hown : s.state = .read → sent.event = .timeout → sent.attempt = h.attempt)
    (decoding : Decoding) :
    Counted (h.note s t calls sent frameValid decoding) t ∧
      (h.note s t calls sent frameValid decoding).OwnEnds := by
  have hnoted : s.state = .read → ∀ e ∈ h.ends ++ h.ended sent frameValid, e.Own := by
    intro hread e he
    rcases List.mem_append.mp he with hold | hnew
    · exact hends.ends e hold
    · exact ended_own (hown hread) e hnew
  have hownNoted : ∀ e ∈ (h.note s t calls sent frameValid decoding).ends, e.Own := by
    intro e he
    simp only [ReadHistory.note] at he
    split_ifs at he with hread
    · exact hnoted hread e he
    · exact (List.not_mem_nil he).elim
  cases hturn with
  | ask hidle hcalls =>
    have hretry := hcounted.idle hidle
    refine ⟨⟨(fun h => by cases h), fun _ => ?_, fun _ => ⟨h.attempt + 1, ?_, ?_⟩⟩, hownNoted, ?_⟩
    · simp [hretry, Sensor.readRetryMax]
    · simp [ReadHistory.note, readEntries, hcalls.arms, hretry]
    · simp [ReadHistory.note, hidle, hretry]
    · simpa [ReadHistory.note, hidle] using hends.givenUp
  | retry hread hend hmore hcalls =>
    obtain ⟨first, hattempt, hmap⟩ := hcounted.ended hread hend
    refine ⟨⟨(fun h => by cases h), fun _ => hmore, fun _ => ⟨first, ?_, ?_⟩⟩, hownNoted, ?_⟩
    · simpa [ReadHistory.note, readEntries, hcalls.arms] using hattempt
    · simpa [ReadHistory.note, hread] using hmap
    · simpa [ReadHistory.note] using hends.givenUp
  | giveUp hread hend hlast hcalls =>
    obtain ⟨first, -, hmap⟩ := hcounted.ended hread hend
    have hbound := hcounted.bound hread
    have hmax : s.retry + 1 = Sensor.readRetryMax := by omega
    refine ⟨⟨fun _ => rfl, (fun h => by cases h), (fun h => by cases h)⟩, hownNoted,
      fun cycle hcycle => ?_⟩
    simp only [ReadHistory.note, hread, and_self, if_true, List.mem_append,
      List.mem_singleton] at hcycle
    rcases hcycle with hold | rfl
    · exact hends.givenUp cycle hold
    · exact ⟨hnoted hread, first, hmax ▸ hmap⟩
  | accept hread hframe hvalid hcalls =>
    refine ⟨⟨fun _ => rfl, (fun h => by cases h), (fun h => by cases h)⟩, hownNoted, ?_⟩
    simpa [ReadHistory.note] using hends.givenUp
  | configured hinit ht hcalls =>
    have hgivenUp : (h.note s t calls sent frameValid decoding).givenUp = h.givenUp := by
      simp [ReadHistory.note, hinit]
    refine ⟨?_, hownNoted, hgivenUp ▸ hends.givenUp⟩
    rcases ht with rfl | rfl
    · exact ⟨hcounted.idle, fun hread => by simp [hinit] at hread,
        fun hread => by simp [hinit] at hread⟩
    · exact ⟨fun _ => rfl, (fun h => by cases h), (fun h => by cases h)⟩
  | ignored hignored =>
    refine ⟨⟨hcounted.idle, hcounted.bound, fun hread => ?_⟩, hownNoted, ?_⟩
    · simpa [ReadHistory.note, hread, readEntries, ended_nil (.inr (hignored hread))] using
        hcounted.ends hread
    · have hrest : ¬ (s.state = .read ∧ s.state = .idle ∧ s.valid = false) := by
        rintro ⟨hread, hidle, -⟩
        rw [hread] at hidle
        cases hidle
      simpa [ReadHistory.note, hrest] using hends.givenUp

theorem Timely.dispatched (h : l.Timely) (hthread : l.thread = .running []) {sent : Sent}
    {queue : List Sent} (hqueue : l.queue = sent :: queue) (answers : Answers) :
    (SensorLink.dispatched { l with queue } sent answers).Timely := by
  cases hsensor : l.machine.sensor? with
  | none =>
    obtain ⟨hnone, hhistory⟩ := dispatched_none (l := { l with queue }) hsensor sent answers
    refine ⟨fun s hs => ?_, fun hk => ?_, ?_⟩
    · exact absurd (hnone.symm.trans hs) (by simp)
    · obtain ⟨s, _, hs, -⟩ := hk
      exact absurd (hnone.symm.trans hs) (by simp)
    · rw [hhistory]
      exact h.own
  | some s =>
    obtain ⟨t, ht, hturn⟩ := Machine.dispatch_turn hsensor answers sent.event
    have hwaiting : s.state = .read → l.OwnTimeouts := fun hread =>
      h.waits ⟨s, [], hsensor, hread, hthread, List.not_mem_nil⟩
    have hown : s.state = .read → sent.event = .timeout → sent.attempt = l.history.attempt :=
      fun hread => (hwaiting hread).queue sent (hqueue ▸ List.mem_cons_self)
    have hhistory : (SensorLink.dispatched { l with queue } sent answers).history =
        l.history.note s t (l.machine.dispatch answers sent.event).2 sent answers.frameValid
          ⟨l.history.attempt, outstandingReads { l with queue }, l.respFrame⟩ :=
      dispatched_history (l := { l with queue }) hsensor ht
    obtain ⟨hcounted, hends⟩ := (h.counted s hsensor).note h.own hturn hown
      ⟨l.history.attempt, outstandingReads { l with queue }, l.respFrame⟩
    refine ⟨fun t' ht' => ?_, fun hk => ?_, hhistory ▸ hends⟩
    · cases ht.symm.trans ht'
      exact hhistory ▸ hcounted
    · obtain ⟨t', calls, ht', hread, hcalls, harm⟩ := hk
      have hnew : ¬ EntersRead calls := fun hentered =>
        harm (List.count_pos_iff.mp (by rw [hentered.arms]; decide))
      obtain ⟨hstate, hattempt⟩ :=
        dispatched_reading (l := { l with queue }) hsensor ht' hread hcalls hnew
      have hl := hwaiting hstate
      refine ⟨fun other hother => ?_, ?_, ?_⟩ <;> rw [hattempt]
      · exact hl.queue other (hqueue ▸ List.mem_cons_of_mem _ hother)
      · exact hl.handlers
      · exact hl.timer

/-- A call that is not the arming of the timer leaves the waiting to go on. -/
theorem Waits.cons (h : k.Waits) {c : Call} {calls : List Call} (hmachine : k.machine = l.machine)
    (hthread : l.thread = .running (c :: calls)) (hk : k.thread = .running calls)
    (hc : c ≠ .timerArm .once) : l.Waits := by
  obtain ⟨s, calls', hs, hread, hcalls, harm⟩ := h
  rw [hk] at hcalls
  cases hcalls
  refine ⟨s, c :: calls, hmachine ▸ hs, hread, hthread, fun hmem => ?_⟩
  rcases List.mem_cons.mp hmem with heq | hrest
  · exact hc heq.symm
  · exact harm hrest

theorem Timely.quietCall (h : l.Timely) {c : Call} {calls : List Call}
    (hthread : l.thread = .running (c :: calls)) (hc : c ≠ .timerArm .once)
    (hk : k.thread = .running calls) (hmachine : k.machine = l.machine)
    (hqueue : k.queue = l.queue) (hhandlers : k.handlers = l.handlers)
    (hhistory : k.history = l.history)
    (htimer : l.OwnTimeouts → ∀ attempt, k.timer = some (some attempt) →
      attempt = l.history.attempt) : k.Timely := by
  refine h.other hmachine hhistory (fun _ hl => ⟨?_, ?_, ?_⟩) fun hwaits =>
    hwaits.cons hmachine hthread hk hc
  · rw [hqueue, hhistory]
    exact hl.queue
  · rw [hhandlers, hhistory]
    exact hl.handlers
  · rw [hhistory]
    exact htimer hl

theorem Timely.called (h : l.Timely) {c : Call} {calls : List Call}
    (hthread : l.thread = .running (c :: calls)) {submits : Bool}
    (hfits : l.armFits (.threadCall submits) = true) :
    (call entries { l with thread := .running calls } submits c).Timely := by
  cases c with
  | timerArm type =>
    cases type with
    | once =>
      simp only [armFits, hthread, Bool.and_eq_true, List.all_eq_true, decide_eq_true_eq,
        List.isEmpty_iff] at hfits
      obtain ⟨hqueue, hhandlers⟩ := hfits
      refine ⟨h.counted, fun _ => ⟨fun sent hsent htimeout => ?_, fun attempt hattempt => ?_,
        fun attempt hattempt => ?_⟩, h.own⟩
      · exact absurd htimeout (hqueue sent hsent)
      · change attempt ∈ l.handlers at hattempt
        simp [hhandlers] at hattempt
      · obtain ⟨-, -, heq⟩ := Option.map_eq_some_iff.mp hattempt
        exact (Option.some.inj heq).symm
    | repeated =>
      refine h.quietCall hthread (by simp) rfl rfl rfl rfl rfl fun _ attempt hattempt => ?_
      obtain ⟨-, -, heq⟩ := Option.map_eq_some_iff.mp hattempt
      exact (Option.some.inj heq).symm
  | timerDisarm =>
    refine h.quietCall hthread (by simp) rfl rfl rfl rfl rfl fun _ attempt hattempt => ?_
    obtain ⟨-, -, heq⟩ := Option.map_eq_some_iff.mp hattempt
    cases heq
  | timerInit =>
    exact h.quietCall hthread (by simp) rfl rfl rfl rfl rfl fun _ attempt hattempt => by
      cases hattempt
  | uartWrite | uartRead | uartAbort | publish =>
    exact h.quietCall hthread (by simp) rfl rfl rfl rfl rfl fun hl => hl.timer

theorem Timely.step (h : l.Timely) (htyped : Typed m l) {act : LinkAct}
    (hstep : Step entries m l act k) (hfits : l.armFits act = true) : k.Timely := by
  cases step_does hstep with
  | post hevent => exact h.push fun _ htimeout => absurd htimeout (posted_ne hevent).1
  | @start answers hcreated =>
    have hstart {s : Sensor} (hs : (l.machine.init answers).1.sensor? = some s) :
        s.retry = 0 ∧ s.state ≠ .read := by
      rw [htyped.created hcreated] at hs
      exact Machine.init_sensor hs
    refine ⟨fun s hs => ⟨fun _ => (hstart hs).1, fun hread => absurd hread (hstart hs).2,
      fun hread => absurd hread (hstart hs).2⟩, fun hwaits => ?_, h.own⟩
    obtain ⟨s, _, hs, hread, -⟩ := hwaits
    exact absurd hread (hstart hs).2
  | leave =>
    refine h.other rfl rfl (fun hwaits => ?_) fun hwaits => ?_
    · obtain ⟨_, _, _, _, hthread, _⟩ := hwaits
      cases hthread
    · obtain ⟨_, _, _, _, hthread, _⟩ := hwaits
      cases hthread
  | dispatch hthread hqueue => exact h.dispatched hthread hqueue _
  | call hthread => exact h.called hthread hfits
  | expire htimer =>
    refine h.other rfl rfl
      (fun _ hl => ⟨hl.queue, fun other hother => ?_, fun _ h => by cases h⟩) fun hk => hk
    rcases List.mem_cons.mp hother with rfl | hold
    · exact hl.timer _ htimer
    · exact hl.handlers other hold
  | @handle n attempt hattempt =>
    have hl : Timely { l with handlers := l.handlers.eraseIdx n } :=
      h.other rfl rfl (fun _ hl => ⟨hl.queue,
        fun other hother => hl.handlers other (List.mem_of_mem_eraseIdx hother), hl.timer⟩)
        fun hk => hk
    exact hl.push fun hwaits _ => (h.waits hwaits).handlers attempt hattempt
  | transfer | abort | deliver => exact h.same rfl rfl rfl rfl rfl rfl
  | @complete n positive driver hresults hcomplete =>
    have hl : Timely { l with driver } := h.same rfl rfl rfl rfl rfl rfl
    refine callBack_keeps (P := Timely) hl fun k c sent hc hsent hk => hk.push fun _ htimeout => ?_
    have huart := htyped.called hcomplete hc hsent
    rw [htimeout] at huart
    rcases huart with hframe | hconfigured
    · cases hframe
    · cases hconfigured

/-- Timeouts: in every run in which the read state arms its timer only when no timeout is queued and
no expiry handler is running, every timeout that ends an attempt is the attempt's own, and every
cycle that gives up has ended all its attempts so, or with a rejected frame. -/
theorem timeouts_end_own_attempts {acts : List LinkAct}
    (h : Run (Guarded (armFits · ·) (Step entries m)) (init m) acts l) : l.history.OwnEnds := by
  have hinv := h.invariant (P := fun l => Typed m l ∧ l.Timely) ⟨init_typed m, init_timely m⟩
    fun l act k hl hstep => ⟨hl.1.step hstep.2, hl.2.step hl.1 hstep.2 hstep.1⟩
  exact hinv.2.own

theorem timeouts_end_own_attempts_unanswered :
    ∃ l, Run (Guarded (armFits · ·) (Step 32 .distance)) (init .distance)
        (firstAttempt ++ timedOut 5 ++ timedOut 5 ++ timedOut 2) l ∧
      l.history.givenUp = [[.timedOut 1 1, .timedOut 2 2, .timedOut 3 3]] ∧
      l.history.OwnEnds := by
  have hgaveUp : ((exec (fun l act => if armFits l act then l.apply 32 .distance act else none)
      (init .distance) (firstAttempt ++ timedOut 5 ++ timedOut 5 ++ timedOut 2)).map
        (·.history.givenUp)) = some [[.timedOut 1 1, .timedOut 2 2, .timedOut 3 3]] := by decide
  obtain ⟨l, hexec, hgivenUp⟩ := Option.map_eq_some_iff.mp hgaveUp
  have hrun : Run (Guarded (armFits · ·) (Step 32 .distance)) (init .distance)
      (firstAttempt ++ timedOut 5 ++ timedOut 5 ++ timedOut 2) l := Run.of_exec_guarded hexec
  exact ⟨l, hrun, hgivenUp, timeouts_end_own_attempts hrun⟩

/-- A frame and the timeout of the same attempt are queued. The frame is rejected, and the next
attempt takes the timeout. -/
def staleTimeout : List LinkAct :=
  firstAttempt ++ answered (responseBytes 16 0) ++
    [.expire, .handle 0, .threadPop ⟨true, false⟩] ++ List.replicate 4 (.threadCall true) ++
    [.threadPop ⟨true, false⟩]

theorem stale_timeout_ends_attempt :
    ∃ l, Run (Step 32 .distance) (init .distance) staleTimeout l ∧
      AttemptEnd.timedOut 2 1 ∈ l.history.ends ∧ ¬ l.history.OwnEnds := by
  have hstale : ((exec (fun l act => l.apply 32 .distance act) (init .distance)
      staleTimeout).map (·.history.ends)) = some [.rejected 1, .timedOut 2 1] := by decide
  obtain ⟨l, hexec, hends⟩ := Option.map_eq_some_iff.mp hstale
  have hrun : Run (Step 32 .distance) (init .distance) staleTimeout l := Run.of_exec hexec
  have hmem : AttemptEnd.timedOut 2 1 ∈ l.history.ends := by simp [hends]
  exact ⟨l, hrun, hmem, fun hown => absurd (hown.ends _ hmem) (by decide)⟩

end SensorLink

end SnipeIt.Ddl
