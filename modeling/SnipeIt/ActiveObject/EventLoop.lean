import SnipeIt.Util.BlockingQueue

/-! # The event loop of an active object

`active_entry` against any number of threads that post events or the end of the
object, also from inside a state of the object itself. The queue between them is
`util_queue`, of any capacity, and the object's thread is its only consumer.
-/

namespace SnipeIt.ActiveObject
open Support Util

variable {ε : Type*} {capacity : ℕ}

def fsmEventEnd : ℕ := 3

/-- The events that can be posted, with the one that `util_active_object_end` posts. -/
structure EventTypes (ε : Type*) where
  type : ε → ℕ
  endEvent : ε
  type_endEvent : type endEvent = fsmEventEnd

inductive LoopPhase (ε : Type*) where
  | created
  | initialising
  | popping
  | popped (event : ε)
  | sending (event : ε)
  | ended

/-- What the loop calls: `util_fsm_init`, and `util_fsm_send_event` with an event. -/
inductive Dispatch (ε : Type*) where
  | initCalled
  | initReturned
  | called (event : ε)
  | returned (event : ε)

def Dispatch.event? : Dispatch ε → Option ε
  | .called event => some event
  | _ => none

/-- An active object, with the calls of its loop and the events whose post was successful. -/
structure EventLoop (ε : Type*) (capacity : ℕ) where
  events : Traffic ε Unit capacity
  phase : LoopPhase ε
  trace : List (Dispatch ε)
  posted : List ε

def utilActiveObjectPost (q : Util.Queue ε Unit capacity) (event : Option ε) (woken : Finset Unit) :
    Status :=
  match event with
  | none => .nullParam
  | some event => if (q.push event woken).1 = .successful then .successful else .actionFailed

inductive LoopAct (ε : Type*) where
  /-- A call of `util_active_object_post`. -/
  | post (event : Option ε) (woken : Finset Unit)
  /-- A call of `util_active_object_end`. -/
  | endObject (woken : Finset Unit)
  /-- A spurious wake-up of the object's thread. -/
  | rouse
  /-- The object's thread goes on. -/
  | thread

namespace EventLoop

def init (slots : Fin capacity → ε) (h : 0 < capacity) : EventLoop ε capacity :=
  ⟨Traffic.init slots h, .created, [], []⟩

def dispatched (s : EventLoop ε capacity) : List ε := s.trace.filterMap Dispatch.event?

def post (s : EventLoop ε capacity) (event : Option ε) (woken : Finset Unit) :
    Option (EventLoop ε capacity) :=
  match event with
  | none => some s
  | some e =>
    (s.events.apply (.push e woken)).map fun events =>
      { s with
        events := events
        posted :=
          if utilActiveObjectPost s.events.queue event woken = .successful then s.posted ++ [e]
          else s.posted }

def thread (types : EventTypes ε) (s : EventLoop ε capacity) : Option (EventLoop ε capacity) :=
  match s.phase with
  | .created => some { s with phase := .initialising, trace := s.trace ++ [.initCalled] }
  | .initialising => some { s with phase := .popping, trace := s.trace ++ [.initReturned] }
  | .popping =>
    (s.events.apply (.pop ())).map fun events =>
      { s with
        events := events
        phase :=
          match (s.events.queue.pop ()).1 with
          | some event => .popped event
          | none => .popping }
  | .popped event =>
    if types.type event = fsmEventEnd then some { s with phase := .ended }
    else some { s with phase := .sending event, trace := s.trace ++ [.called event] }
  | .sending event => some { s with phase := .popping, trace := s.trace ++ [.returned event] }
  | .ended => none

def apply (types : EventTypes ε) (s : EventLoop ε capacity) :
    LoopAct ε → Option (EventLoop ε capacity)
  | .post event woken => s.post event woken
  | .endObject woken => s.post (some types.endEvent) woken
  | .rouse => (s.events.apply (.rouse ())).map fun events => { s with events := events }
  | .thread => s.thread types

def Step (types : EventTypes ε) (s : EventLoop ε capacity) (a : LoopAct ε)
    (t : EventLoop ε capacity) : Prop :=
  s.apply types a = some t

/-- The calls of a loop that is done with the given events. -/
def served (events : List ε) : List (Dispatch ε) :=
  .initCalled :: .initReturned :: events.flatMap fun e => [.called e, .returned e]

/-- How the calls of the loop and the events that it has popped belong together. -/
inductive At (types : EventTypes ε) : LoopPhase ε → List (Dispatch ε) → List ε → Prop where
  | created : At types .created [] []
  | initialising : At types .initialising [.initCalled] []
  | popping {events : List ε} (hlive : ∀ e ∈ events, types.type e ≠ fsmEventEnd) :
      At types .popping (served events) events
  | popped {events : List ε} {event : ε} (hlive : ∀ e ∈ events, types.type e ≠ fsmEventEnd) :
      At types (.popped event) (served events) (events ++ [event])
  | sending {events : List ε} {event : ε} (hlive : ∀ e ∈ events, types.type e ≠ fsmEventEnd)
      (hevent : types.type event ≠ fsmEventEnd) :
      At types (.sending event) (served events ++ [.called event]) (events ++ [event])
  | ended {events : List ε} {event : ε} (hlive : ∀ e ∈ events, types.type e ≠ fsmEventEnd) :
      At types .ended (served events) (events ++ [event])

def popped (s : EventLoop ε capacity) : List ε := s.events.returned.map Prod.snd

structure Looped (types : EventTypes ε) (s : EventLoop ε capacity) : Prop where
  kept : s.events.Kept
  posted : s.posted = s.events.accepted
  at_phase : At types s.phase s.trace s.popped

variable {types : EventTypes ε} {s t : EventLoop ε capacity}

theorem Looped.init (slots : Fin capacity → ε) (h : 0 < capacity) :
    Looped types (init slots h) where
  kept := Traffic.Kept.init slots h
  posted := rfl
  at_phase := .created

/-- A post is successful exactly when the queue takes the event. -/
theorem Looped.post {event : Option ε} {woken : Finset Unit} (hs : s.Looped types)
    (h : s.post event woken = some t) : t.Looped types := by
  cases event with
  | none =>
    cases h
    exact hs
  | some e =>
    obtain ⟨events, hstep, rfl⟩ := Option.map_eq_some_iff.mp h
    have hkept : events.Kept := hs.kept.step hstep
    cases Traffic.step_does hstep with
    | store hroom _ =>
      refine ⟨hkept, ?_, hs.at_phase⟩
      simp [utilActiveObjectPost, Util.Queue.push_successful_iff, hroom.ne, hs.posted]
    | refuse hfull =>
      refine ⟨hkept, ?_, hs.at_phase⟩
      simp [utilActiveObjectPost, Util.Queue.push_successful_iff, hfull, hs.posted]

theorem Looped.rouse {events : Traffic ε Unit capacity} (hs : s.Looped types)
    (h : s.events.apply (.rouse ()) = some events) :
    Looped types { s with events := events } := by
  have hkept : events.Kept := hs.kept.step h
  cases Traffic.step_does h with
  | rouse => exact ⟨hkept, hs.posted, hs.at_phase⟩

theorem served_append (events : List ε) (event : ε) :
    served (events ++ [event]) = served events ++ [.called event] ++ [.returned event] := by
  simp [served]

theorem Looped.thread (hs : s.Looped types) (h : s.thread types = some t) : t.Looped types := by
  obtain ⟨hkept, hposted, hat⟩ := hs
  obtain ⟨events, phase, trace, posted⟩ := s
  dsimp only [popped] at hat
  generalize hpopped : events.returned.map Prod.snd = poppedEvents at hat
  cases hat with
  | created =>
    cases h
    exact ⟨hkept, hposted, by simpa [popped, hpopped] using At.initialising⟩
  | initialising =>
    cases h
    have hat : At types .popping (served []) [] := .popping (by simp)
    exact ⟨hkept, hposted, by simpa [popped, hpopped, served] using hat⟩
  | popping hlive =>
    obtain ⟨events', hstep, rfl⟩ := Option.map_eq_some_iff.mp h
    have hkept' : events'.Kept := hkept.step hstep
    cases Traffic.step_does hstep with
    | take _ hsome =>
      refine ⟨hkept', hposted, ?_⟩
      simpa [popped, hpopped, Util.Queue.pop, hsome] using At.popped hlive
    | sleep _ hempty =>
      have hnone : ¬ 0 < events.queue.buffer.count := Nat.not_lt.mpr hempty.le
      refine ⟨hkept', hposted, ?_⟩
      simpa [popped, hpopped, Util.Queue.pop, hnone] using At.popping hlive
  | @popped es event hlive =>
    simp only [EventLoop.thread] at h
    split_ifs at h with hend
    · cases h
      exact ⟨hkept, hposted, by simpa [popped, hpopped] using At.ended hlive⟩
    · cases h
      exact ⟨hkept, hposted, by simpa [popped, hpopped] using At.sending hlive hend⟩
  | @sending es event hlive hevent =>
    cases h
    have hlive' : ∀ e ∈ es ++ [event], types.type e ≠ fsmEventEnd := by
      simpa [or_imp, forall_and] using ⟨hlive, hevent⟩
    refine ⟨hkept, hposted, ?_⟩
    dsimp only [popped]
    rw [hpopped, ← served_append]
    exact .popping hlive'
  | ended => cases h

theorem Looped.step {a : LoopAct ε} (hs : s.Looped types) (h : Step types s a t) :
    t.Looped types := by
  cases a with
  | post event woken => exact hs.post h
  | endObject woken =>
    have hpost : s.post (some types.endEvent) woken = some t := h
    exact hs.post hpost
  | rouse =>
    obtain ⟨events, hstep, rfl⟩ := Option.map_eq_some_iff.mp h
    exact hs.rouse hstep
  | thread => exact hs.thread h

theorem run_looped {slots : Fin capacity → ε} {hpos : 0 < capacity} {acts : List (LoopAct ε)}
    (h : Run (Step types) (init slots hpos) acts s) : s.Looped types :=
  h.invariant (Looped.init slots hpos) fun _ _ _ hs hst => hs.step hst

theorem filterMap_served (events : List ε) :
    (served events).filterMap Dispatch.event? = events := by
  induction events using List.reverseRecOn with
  | nil => rfl
  | append_singleton es e ih =>
    rw [served_append, List.filterMap_append, List.filterMap_append, ih]
    simp [Dispatch.event?]

/-- Every event of the trace comes after the return of `util_fsm_init`. -/
theorem initReturned_mem_of_served {events : List ε} {before after : List (Dispatch ε)} {e : ε}
    (h : served events = before ++ .called e :: after) : .initReturned ∈ before := by
  rcases before with _ | ⟨d, _ | ⟨d', before⟩⟩
  · cases h
  · cases h
  · simp only [served, List.cons_append, List.cons.injEq] at h
    rw [← h.2.1]
    simp

/-- Only events that are not an end are dispatched, they are the first that were popped, and
`util_fsm_init` has returned before. -/
theorem At.dispatched {phase : LoopPhase ε} {trace : List (Dispatch ε)} {poppedEvents : List ε}
    (h : At types phase trace poppedEvents) :
    trace.filterMap Dispatch.event? <+: poppedEvents ∧
      (∀ e ∈ trace.filterMap Dispatch.event?, types.type e ≠ fsmEventEnd) ∧
      ∀ before e after, trace = before ++ .called e :: after → .initReturned ∈ before := by
  cases h with
  | created => simp
  | initialising =>
    refine ⟨by simp [Dispatch.event?], by simp [Dispatch.event?], fun before e after h => ?_⟩
    rcases before with _ | ⟨d, before⟩ <;> simp at h
  | popping hlive =>
    rw [filterMap_served]
    exact ⟨List.prefix_rfl, hlive, fun _ _ _ => initReturned_mem_of_served⟩
  | popped hlive =>
    rw [filterMap_served]
    exact ⟨List.prefix_append _ _, hlive, fun _ _ _ => initReturned_mem_of_served⟩
  | @sending es event hlive hevent =>
    have hsent : (served es ++ [Dispatch.called event]).filterMap Dispatch.event? =
        es ++ [event] := by
      rw [List.filterMap_append, filterMap_served]
      rfl
    rw [hsent]
    refine ⟨List.prefix_rfl, by simpa [or_imp, forall_and] using ⟨hlive, hevent⟩, ?_⟩
    intro before e after h
    have hserved : served (es ++ [event]) =
        before ++ .called e :: (after ++ [.returned event]) := by
      rw [served_append, h]
      simp
    exact initReturned_mem_of_served hserved
  | ended hlive =>
    rw [filterMap_served]
    exact ⟨List.prefix_append _ _, hlive, fun _ _ _ => initReturned_mem_of_served⟩

/-- In every run `util_fsm_init` returns before an event is dispatched, the dispatched events are
the first of those whose post was successful, in order, and neither an end event nor anything
accepted after one is among them. -/
theorem dispatched_is_prefix_of_posted {slots : Fin capacity → ε} {hpos : 0 < capacity}
    {acts : List (LoopAct ε)} (h : Run (Step types) (init slots hpos) acts s) :
    (∀ before e after, s.trace = before ++ .called e :: after → .initReturned ∈ before) ∧
      s.dispatched <+: s.posted ∧
      (∀ e ∈ s.dispatched, types.type e ≠ fsmEventEnd) ∧
      ∀ before e after, s.posted = before ++ e :: after → types.type e = fsmEventEnd →
        s.dispatched <+: before := by
  have hlooped := run_looped h
  obtain ⟨hfirst, hlive, hinit⟩ := hlooped.at_phase.dispatched
  have hposted : s.posted = s.popped ++ s.events.queue.buffer.content := by
    rw [hlooped.posted, hlooped.kept.content, popped]
  have hdispatched : s.dispatched <+: s.posted := by
    rw [hposted]
    exact hfirst.trans (List.prefix_append _ _)
  refine ⟨hinit, hdispatched, hlive, fun before e after heq hend => ?_⟩
  have hbefore : before <+: s.posted := ⟨e :: after, heq.symm⟩
  by_cases hlength : s.dispatched.length ≤ before.length
  · exact List.prefix_of_prefix_length_le hdispatched hbefore hlength
  · have hmem : e ∈ s.dispatched := by
      have hupto : before ++ [e] <+: s.posted := ⟨after, by simp [heq]⟩
      have hsub : before ++ [e] <+: s.dispatched :=
        List.prefix_of_prefix_length_le hupto hdispatched (by simp; omega)
      exact hsub.subset (by simp)
    exact absurd hend (hlive e hmem)

/-- Two events are posted before the thread has started, and one behind the end of the object. -/
def postedBehindEnd : List (LoopAct ℕ) :=
  [.post (some 4) ∅, .post (some 5) ∅] ++ List.replicate 6 .thread ++
    [.endObject ∅, .post (some 6) ∅, .post (some 7) ∅] ++ List.replicate 4 .thread

theorem dispatched_is_prefix_of_posted_behind_end :
    ∃ s : EventLoop ℕ 2, Run (Step ⟨id, fsmEventEnd, rfl⟩)
        (init (fun _ => 0) Nat.two_pos) postedBehindEnd s ∧
      s.posted = [4, 5, 3, 6] ∧ s.dispatched = [4, 5] ∧ s.dispatched <+: s.posted := by
  have hfacts : (exec (apply ⟨id, fsmEventEnd, rfl⟩) (init (fun _ => 0) Nat.two_pos)
      postedBehindEnd).map (fun s => (s.posted, s.dispatched)) = some ([4, 5, 3, 6], [4, 5]) := by
    decide +kernel
  obtain ⟨s, hexec, hs⟩ := Option.map_eq_some_iff.mp hfacts
  have hrun : Run (Step ⟨id, fsmEventEnd, rfl⟩) (init (fun _ => 0) Nat.two_pos)
      postedBehindEnd s := Run.of_exec hexec
  simp only [Prod.mk.injEq] at hs
  exact ⟨s, hrun, hs.1, hs.2, (dispatched_is_prefix_of_posted hrun).2.1⟩

end EventLoop

end SnipeIt.ActiveObject
