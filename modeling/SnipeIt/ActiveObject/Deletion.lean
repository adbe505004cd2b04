import SnipeIt.ActiveObject.Teardown

/-! # Pushing into a deleted queue

A module that is not quiet when its queue is deleted can still post. Which
modules are quiet depends on the run, except for the two that use neither a
timer nor the UART.
-/

namespace SnipeIt.ActiveObject
open Hal Support

/-- The modules that use neither a timer nor the UART. -/
def Module.Passive (m : Module) : Prop := m = .broadcaster ∨ m = .temperatureHumidity

def Machine.Passive : Machine → Prop
  | .broadcaster _ => True
  | .temperatureHumidity _ => True
  | _ => False

theorem Machine.init_passive {machine : Machine} (h : machine.Passive) (answers : Answers) :
    (machine.init answers).1.Passive ∧ (machine.init answers).2 = [] := by
  cases machine with
  | broadcaster | temperatureHumidity => exact ⟨trivial, rfl⟩
  | _ => cases h

theorem Machine.dispatch_passive {machine : Machine} (h : machine.Passive) (answers : Answers)
    (event : Event) : (machine.dispatch answers event).1.Passive ∧
      (machine.dispatch answers event).2 = [] := by
  cases machine with
  | broadcaster | temperatureHumidity => exact ⟨trivial, rfl⟩
  | _ => cases h

namespace System

variable {s t : System} {m : Module} {act : Act}

/-- Some continuation pushes an event into a deleted queue. -/
def Exposed (s : System) : Prop := ∃ acts t, Run Step s acts t ∧ ¬ t.Clean

theorem Exposed.of_run {acts : List Act} (h : Run Step s acts t) (ht : t.Exposed) : s.Exposed := by
  obtain ⟨acts', u, hrun, hu⟩ := ht
  exact ⟨acts ++ acts', u, h.append hrun, hu⟩

theorem post_unclean (event : Event) (hm : (s.queue m).deleted = true) :
    ¬ (s.post m event).Clean := by
  intro hclean
  have hlast := List.mem_append_right s.pushes
    (List.mem_singleton_self (Push.mk m event (s.queue m).deleted))
  exact Bool.false_ne_true ((hclean _ hlast).symm.trans hm)

theorem exposed_of_handler {handler : Module × Event} (hmem : handler ∈ s.handlers)
    (hm : (s.queue handler.1).deleted = true) : s.Exposed := by
  have hstep : Step s (.handle handler)
      ({ s with handlers := s.handlers.erase handler }.post handler.1 handler.2) := if_pos hmem
  exact ⟨_, _, .single hstep, post_unclean _ hm⟩

theorem exposed_of_timer {timer : Timer} (htimer : s.timer m = some timer)
    (harmed : timer.armed ≠ none) (hm : (s.queue m).deleted = true) : s.Exposed := by
  obtain ⟨handler, _ | type⟩ := timer
  · exact absurd rfl harmed
  · cases type with
    | once =>
      have hstep : Step s (.expire m) { s.setTimer m (some ⟨handler, none⟩) with
          handlers := (m, handler) :: s.handlers } := by
        simp [Step, apply, expire, htimer]
      exact .of_run (.single hstep) (exposed_of_handler (List.mem_cons_self ..) hm)
    | repeated =>
      have hstep : Step s (.expire m) { s with handlers := (m, handler) :: s.handlers } := by
        simp [Step, apply, expire, htimer]
      exact .of_run (.single hstep) (exposed_of_handler (List.mem_cons_self ..) hm)

/-- The rest of the deletions can go through at once. -/
theorem run_deletions (rest : List DeleteStep) (s : System) (hphase : s.phase = .deleting rest) :
    ∃ acts t, Run Step s acts t ∧ t.phase = .busDeleting ∧ t.uart = s.uart ∧
      ∀ k, (s.queue k).deleted = true → (t.queue k).deleted = true := by
  induction rest generalizing s with
  | nil =>
    have hstep : Step s .teardown { s with phase := .busDeleting } := by
      simp [Step, apply, teardown, hphase]
    exact ⟨_, _, .single hstep, rfl, rfl, fun _ h => h⟩
  | cons d rest ih =>
    have hstep : Step s .teardown { s.deleteStep d with phase := .deleting rest } := by
      simp [Step, apply, teardown, hphase]
    obtain ⟨acts, t, hrun, hbus, huart, hdeleted⟩ :=
      ih { s.deleteStep d with phase := .deleting rest } rfl
    refine ⟨_, t, .cons hstep hrun, hbus, ?_, fun k hk => hdeleted k ?_⟩
    · cases d <;> exact huart
    · cases d with
      | queueDelete m =>
        by_cases hkm : k = m
        · subst hkm
          simp [deleteStep]
        · simpa [deleteStep, hkm] using hk
      | timerDestroy m => exact hk

/-- The completion thread can come to wait for a completion. -/
theorem run_waiting (hrunning : s.uart.running = true) (hthread : s.uart.thread ≠ .exited) :
    ∃ acts, Run Step s acts { s with uart := { s.uart with thread := .waiting } } := by
  cases huart : s.uart.thread with
  | exited => exact absurd huart hthread
  | waiting =>
    refine ⟨[], ?_⟩
    rw [← huart]
    exact .nil
  | checking =>
    have hstep : Step s .uartCheck { s with uart := { s.uart with thread := .waiting } } := by
      simp [Step, apply, Uart.check, huart, hrunning]
    exact ⟨_, .single hstep⟩

/-- A UART callback that is left when the queue is deleted can run until the driver has stopped. -/
theorem exposed_of_callback {rest : List DeleteStep} (hphase : s.phase = .deleting rest)
    (hordered : s.Ordered) (hm : (s.queue m).deleted = true)
    (hcallback : ¬ s.uart.NoCallback (·.1 = m)) : s.Exposed := by
  obtain ⟨hrunning, hthread⟩ := hordered.alive (by simp [hphase, Phase.UartUp])
  obtain ⟨waits, hwaiting⟩ := run_waiting hrunning hthread
  refine .of_run hwaiting ?_
  obtain ⟨deletions, t, hdeletions, hbus, huart, hdeleted⟩ := run_deletions rest
    { s with uart := { s.uart with thread := .waiting } } hphase
  refine .of_run hdeletions ?_
  have hbusDelete : Step t .teardown { t with bus := false, phase := .uartStopping } := by
    simp [Step, apply, teardown, hbus]
  have hstop : Step { t with bus := false, phase := .uartStopping } (.uartStop none .done)
      { t with bus := false, uart := t.uart.stop none .done, phase := .uartJoining } := by
    simp [Step, apply]
  refine .of_run (.cons hbusDelete (.single hstop)) ?_
  simp only [Uart.NoCallback, not_forall, not_not] at hcallback
  obtain ⟨entry, hentry, htransfer, ref, href, cb, hcb, rfl⟩ := hcallback
  have hinflight : entry ∈ (t.uart.stop none .done).inflight :=
    Uart.mem_inflight_enqueue_done (u := { t.uart with running := false }) (by rwa [huart])
  have hslot : cb ∈ ((t.uart.stop none .done).slots ref).callback := by
    simpa [Uart.stop, huart] using hcb
  obtain ⟨n, uart, hcomplete⟩ := Uart.complete_callback (by simp [Uart.stop, huart]) hinflight
    htransfer href hslot
  have hstep : Step { t with bus := false, uart := t.uart.stop none .done, phase := .uartJoining }
      (.uartComplete n true)
      ({ t with bus := false, uart, phase := .uartJoining }.post cb.1 cb.2) := by
    simp [Step, apply, uartComplete, hcomplete]
  exact ⟨_, _, .single hstep, post_unclean _ (hdeleted _ hm)⟩

/-- From a queue that was deleted too early the code can come to push into it. -/
theorem noisy_delete_exposed {acts : List Act} (h : Run Step init acts s) (hstep : Step s act t)
    (hnoisy : ¬ s.QuietDelete act) : t.Exposed := by
  simp only [QuietDelete, not_forall] at hnoisy
  obtain ⟨m, hdeletes, hnoisy⟩ := hnoisy
  unfold deletes at hdeletes
  split at hdeletes
  swap
  · cases hdeletes
  split at hdeletes
  swap
  · cases hdeletes
  rename_i k rest hphase
  cases hdeletes
  have hordered : t.Ordered := (step_keeps (run_ordered h) hstep).1
  simp only [Step, apply, teardown, hphase, Option.some.injEq] at hstep
  subst hstep
  have hm : (Function.update s.queue m { s.queue m with deleted := true } m).deleted = true := by
    simp
  by_cases htimer : ∀ timer ∈ s.timer m, timer.armed = none
  · by_cases hhandlers : ∀ handler ∈ s.handlers, handler.1 ≠ m
    · exact exposed_of_callback rfl hordered hm fun hnone => hnoisy ⟨htimer, hhandlers, hnone⟩
    · simp only [not_forall, not_not] at hhandlers
      obtain ⟨handler, hmem, rfl⟩ := hhandlers
      exact exposed_of_handler hmem hm
  · simp only [not_forall] at htimer
    obtain ⟨timer, hmem, harmed⟩ := htimer
    exact exposed_of_timer hmem harmed hm

/-! ## Modules that never post to themselves -/

/-- A module that calls neither its timer nor the UART, and for which nothing waits there. -/
structure Idle (s : System) (m : Module) : Prop where
  machine : (s.machine m).Passive
  calls : ∀ c calls, s.thread m ≠ .running (c :: calls)
  timer : s.timer m = none
  handlers : ∀ handler ∈ s.handlers, handler.1 ≠ m
  slots : ∀ ref, ∀ cb ∈ (s.uart.slots ref).callback, cb.1 ≠ m

theorem Idle.quiet (h : s.Idle m) : s.Quiet m := by
  refine ⟨fun timer htimer => ?_, h.handlers, fun _ _ _ ref _ cb hcb => h.slots ref cb hcb⟩
  rw [h.timer] at htimer
  cases htimer

theorem init_idle (hm : m.Passive) : init.Idle m where
  machine := by rcases hm with rfl | rfl <;> trivial
  calls := fun _ _ h => by cases h
  timer := rfl
  handlers := fun _ h => by cases h
  slots := fun _ _ h => by cases h

theorem Idle.dispatched {k : Module} {result : Machine × List Call} (h : s.Idle m)
    (hresult : k = m → result.1.Passive ∧ result.2 = []) : (s.dispatched k result).Idle m := by
  by_cases hk : m = k
  · subst hk
    obtain ⟨hpassive, hcalls⟩ := hresult rfl
    refine ⟨?_, fun c calls => ?_, h.timer, h.handlers, h.slots⟩
    · simpa [System.dispatched] using hpassive
    · simp [System.dispatched, hcalls]
  · refine ⟨?_, fun c calls => ?_, h.timer, h.handlers, h.slots⟩
    · simpa [System.dispatched, hk] using h.machine
    · simpa [System.dispatched, hk] using h.calls c calls

theorem Idle.post {k : Module} {event : Event} (h : s.Idle m) : (s.post k event).Idle m :=
  ⟨h.machine, h.calls, h.timer, h.handlers, h.slots⟩

theorem Idle.publish {ao : Module} {event : Event} (h : s.Idle m) :
    (s.publish ao event).Idle m := by
  rcases publish_eq s ao event with heq | heq <;> rw [heq]
  · exact h
  · exact h.post

theorem Idle.setThread {k : Module} {thread : Thread} (h : s.Idle m)
    (hthread : k = m → ∀ c calls, thread ≠ .running (c :: calls)) :
    (s.setThread k thread).Idle m := by
  refine ⟨h.machine, fun c calls => ?_, h.timer, h.handlers, h.slots⟩
  by_cases hk : m = k
  · subst hk
    simpa [System.setThread] using hthread rfl c calls
  · simpa [System.setThread, hk] using h.calls c calls

theorem Idle.setTimer {k : Module} {timer : Option Timer} (h : s.Idle m)
    (htimer : k = m → timer = none) : (s.setTimer k timer).Idle m := by
  refine ⟨h.machine, h.calls, ?_, h.handlers, h.slots⟩
  by_cases hk : m = k
  · subst hk
    simpa [System.setTimer] using htimer rfl
  · simpa [System.setTimer, hk] using h.timer

theorem Idle.transfer {k : Module} {device : Device} {callback : Option Event}
    {answer : Submission} (h : s.Idle m) (hk : k ≠ m) :
    Idle { s with uart := s.uart.transfer device (callback.map (k, ·)) answer } m := by
  refine ⟨h.machine, h.calls, h.timer, h.handlers, fun ref cb hcb => ?_⟩
  rcases Uart.transfer_callback hcb with hnew | hold
  · obtain ⟨event, -, rfl⟩ := Option.map_eq_some_iff.mp hnew
    exact hk
  · exact h.slots ref cb hold

theorem Idle.call {k : Module} {data : Option SlotRef} {answer : Submission} {c : Call}
    (h : s.Idle m) (hk : k ≠ m) : (s.call k data answer c).Idle m := by
  cases c with
  | timerInit | timerArm | timerDisarm => exact h.setTimer fun heq => absurd heq hk
  | uartWrite | uartRead => exact h.transfer hk
  | uartAbort =>
    refine ⟨h.machine, h.calls, h.timer, h.handlers, ?_⟩
    simpa [System.call, Uart.abort] using h.slots
  | publish ao event => exact h.publish

theorem Idle.teardown (h : s.Idle m) (hstep : s.teardown = some t) : t.Idle m := by
  unfold System.teardown at hstep
  split at hstep
  case h_4 k rest _ =>
    split_ifs at hstep
    cases hstep
    have hjoined : (s.setThread k .joined).Idle m := h.setThread fun _ _ _ => nofun
    obtain ⟨hmachine, hcalls, htimer, hhandlers, hslots⟩ := hjoined
    exact ⟨hmachine, hcalls, htimer, hhandlers, hslots⟩
  case h_6 d rest _ =>
    cases hstep
    cases d with
    | queueDelete k => exact ⟨h.machine, h.calls, h.timer, h.handlers, h.slots⟩
    | timerDestroy k =>
      have hdestroyed : (s.setTimer k none).Idle m := h.setTimer fun _ => rfl
      obtain ⟨hmachine, hcalls, htimer, hhandlers, hslots⟩ := hdestroyed
      exact ⟨hmachine, hcalls, htimer, hhandlers, hslots⟩
  case h_8 =>
    split_ifs at hstep
    cases hstep
    exact ⟨h.machine, h.calls, h.timer, h.handlers, h.slots⟩
  case h_9 => cases hstep
  all_goals
    cases hstep
    exact ⟨h.machine, h.calls, h.timer, h.handlers, h.slots⟩

theorem Idle.threadStart {k : Module} {answers : Answers} (h : s.Idle m)
    (hstep : s.threadStart k answers = some t) : t.Idle m := by
  unfold System.threadStart at hstep
  split_ifs at hstep
  cases hstep
  exact h.dispatched fun hk => Machine.init_passive (hk ▸ h.machine) answers

theorem Idle.threadPop {k : Module} {answers : Answers} (h : s.Idle m)
    (hstep : s.threadPop k answers = some t) : t.Idle m := by
  unfold System.threadPop at hstep
  split_ifs at hstep
  split at hstep
  · cases hstep
  · rename_i event events _
    have hpopped : Idle { s with
        queue := Function.update s.queue k { s.queue k with events } } m :=
      ⟨h.machine, h.calls, h.timer, h.handlers, h.slots⟩
    split_ifs at hstep
    · cases hstep
      refine hpopped.setThread fun _ c calls hrunning => ?_
      cases hrunning
    · cases hstep
      exact hpopped.dispatched fun hk => Machine.dispatch_passive (hk ▸ h.machine) answers event

theorem Idle.threadCall {k : Module} {data : Option SlotRef} {answer : Submission} (h : s.Idle m)
    (hstep : s.threadCall k data answer = some t) : t.Idle m := by
  obtain ⟨c, calls, hthread, rfl⟩ := threadCall_eq_some hstep
  have hk : k ≠ m := by
    rintro rfl
    exact h.calls c calls hthread
  exact (h.setThread fun heq => absurd heq hk).call hk

theorem Idle.expire {k : Module} (h : s.Idle m) (hstep : s.expire k = some t) : t.Idle m := by
  have hk {timer : Timer} (htimer : s.timer k = some timer) : k ≠ m := by
    rintro rfl
    rw [h.timer] at htimer
    cases htimer
  unfold System.expire at hstep
  split at hstep
  · rename_i handler htimer
    cases hstep
    have hset : (s.setTimer k (some ⟨handler, none⟩)).Idle m :=
      h.setTimer fun heq => absurd heq (hk htimer)
    exact ⟨h.machine, h.calls, hset.timer, List.forall_mem_cons.mpr ⟨hk htimer, h.handlers⟩,
      h.slots⟩
  · rename_i htimer
    cases hstep
    exact ⟨h.machine, h.calls, h.timer, List.forall_mem_cons.mpr ⟨hk htimer, h.handlers⟩, h.slots⟩
  · cases hstep

theorem Idle.handle {handler : Module × Event} (h : s.Idle m)
    (hstep : s.handle handler = some t) : t.Idle m := by
  unfold System.handle at hstep
  split_ifs at hstep
  cases hstep
  exact ⟨h.machine, h.calls, h.timer,
    fun other hother => h.handlers other (List.mem_of_mem_erase hother), h.slots⟩

theorem Idle.uartComplete {n : ℕ} {positive : Bool} (h : s.Idle m)
    (hstep : s.uartComplete n positive = some t) : t.Idle m := by
  unfold System.uartComplete at hstep
  split at hstep
  · cases hstep
  all_goals
    rename_i hcomplete
    obtain ⟨-, -, -, -, -, -, -, hslots, -⟩ := Uart.complete_eq_some hcomplete
    cases hstep
    exact ⟨h.machine, h.calls, h.timer, h.handlers,
      fun ref cb hcb => h.slots ref cb (hslots ref ▸ hcb)⟩

theorem Idle.step (h : s.Idle m) (hstep : Step s act t) : t.Idle m := by
  cases act with
  | publish ao event =>
    simp only [Step, apply] at hstep
    split at hstep
    · cases hstep
      exact h.publish
    · cases hstep
  | stop caller =>
    simp only [Step, apply] at hstep
    split at hstep
    · cases hstep
      exact ⟨h.machine, h.calls, h.timer, h.handlers, h.slots⟩
    · cases hstep
  | teardown => exact h.teardown hstep
  | uartStop data answer =>
    simp only [Step, apply] at hstep
    split at hstep
    · cases hstep
      refine ⟨h.machine, h.calls, h.timer, h.handlers, ?_⟩
      simpa [Uart.stop] using h.slots
    · cases hstep
  | threadStart k answers => exact h.threadStart hstep
  | threadPop k answers => exact h.threadPop hstep
  | threadCall k data answer => exact h.threadCall hstep
  | expire k => exact h.expire hstep
  | handle handler => exact h.handle hstep
  | uartCheck =>
    obtain ⟨uart, hcheck, rfl⟩ := Option.map_eq_some_iff.mp hstep
    obtain ⟨-, rfl⟩ := Uart.check_eq_some hcheck
    exact ⟨h.machine, h.calls, h.timer, h.handlers, h.slots⟩
  | uartComplete n positive => exact h.uartComplete hstep

/-- The queues of the broadcaster and of the temperature-humidity module are always deleted when
these are quiet. -/
theorem passive_quiet {acts : List Act} (h : Run Step init acts s) (hm : m.Passive) :
    s.Quiet m := by
  have hidle : s.Idle m :=
    h.invariant (init_idle hm) fun _ _ _ (hidle : Idle _ m) hstep => hidle.step hstep
  exact hidle.quiet

end System

/-- Teardown: in a run that deletes only the queues of quiet modules no event is pushed into a
deleted queue, and from any other deletion on the code can come to do so. -/
theorem deleted_queues_untouched {acts : List Act} {s : System}
    (h : Run System.Step System.init acts s) :
    (Run (Guarded System.QuietDelete System.Step) System.init acts s → s.Clean) ∧
      ∀ act t, System.Step s act t → ¬ s.QuietDelete act → t.Exposed :=
  ⟨System.quiet_run_clean, fun _ _ hstep hnoisy => System.noisy_delete_exposed h hstep hnoisy⟩

/-- The hardware is well, and a frame is valid. -/
def Answers.good : Answers := ⟨true, true⟩

/-- A module's thread begins and makes its first `calls` calls. -/
def begin (m : Module) (calls : ℕ) : List Act :=
  .threadStart m .good :: List.replicate calls (.threadCall m none .done)

/-- A module's thread takes an event and makes the `calls` calls for it. -/
def turn (m : Module) (calls : ℕ) : List Act :=
  .threadPop m .good :: List.replicate calls (.threadCall m none .done)

/-- The system comes up, is told to stop before the scheduler is started, and goes down. The first
configuration write of the GPS fails. -/
def quietTeardown : List Act :=
  begin .scheduler 1 ++ begin .broadcaster 0 ++ begin .distance 1 ++ begin .servo 1 ++
  begin .temperatureHumidity 0 ++ begin .gps 2 ++ [.uartCheck, .uartComplete 0 false] ++
  [.stop .ddlBridgeStop] ++ List.replicate 7 .teardown ++ modules.flatMap (turn · 0) ++
  List.replicate 7 .teardown ++ List.replicate 12 .teardown ++
  [.uartStop none .done, .uartCheck, .teardown]

theorem quiet_teardown_clean :
    ∃ s, System.init.exec (fun s act => decide (s.QuietDelete act)) quietTeardown = some s ∧
      s.pushes.length = 6 ∧ s.Clean := by
  have hpushes : ((System.init.exec (fun s act => decide (s.QuietDelete act)) quietTeardown).map
      (·.pushes.length)) = some 6 := by decide
  obtain ⟨s, hexec, hlength⟩ := Option.map_eq_some_iff.mp hpushes
  have hrun : Run (Guarded System.QuietDelete System.Step) System.init quietTeardown s :=
    (System.run_of_exec hexec).mono fun _ _ _ h => ⟨of_decide_eq_true h.1, h.2⟩
  exact ⟨s, hexec, hlength, (deleted_queues_untouched hrun.of_guarded).1 hrun⟩

/-- The scheduler was started. Its timer still runs when its queue is deleted, and expires before
the next statement destroys it. -/
def tickAfterDelete : List Act :=
  begin .scheduler 1 ++ [.publish .scheduler .start] ++ turn .scheduler 2 ++
  begin .broadcaster 0 ++ begin .distance 1 ++ turn .distance 3 ++ begin .servo 1 ++
  begin .temperatureHumidity 0 ++ begin .gps 2 ++ [.stop .ddlBridgeStop] ++
  List.replicate 7 .teardown ++ modules.flatMap (turn · 0) ++ List.replicate 7 .teardown ++
  [.teardown, .expire .scheduler, .handle (.scheduler, .tick)]

theorem tick_pushed_after_delete :
    ∃ s, Run System.Step System.init tickAfterDelete s ∧
      ∃ p ∈ s.pushes, p.target = .scheduler ∧ p.event = .tick ∧ p.deleted = true := by
  have hpush : ((System.init.exec (fun _ _ => true) tickAfterDelete).map fun s =>
      s.pushes.any fun p => p.target = .scheduler ∧ p.event = .tick ∧ p.deleted = true) =
      some true := by decide
  obtain ⟨s, hexec, hany⟩ := Option.map_eq_some_iff.mp hpush
  refine ⟨s, (System.run_of_exec hexec).of_guarded, ?_⟩
  simpa using hany

end SnipeIt.ActiveObject
