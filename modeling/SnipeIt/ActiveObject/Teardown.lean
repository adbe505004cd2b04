import SnipeIt.ActiveObject.System

/-! # Deleting the queues

Once a queue is being deleted every thread of an active object was joined, so
that only a timer or a UART callback can still post. A module is quiet when it
has neither left.
-/

namespace SnipeIt.ActiveObject
open Hal Support

namespace Phase

/-- The modules whose threads are still to be joined. -/
def unjoined : Phase → List Module
  | .up => modules
  | .ending _ => modules
  | .joining rest => rest
  | _ => []

def BeforeDelete : Phase → Prop
  | .up => True
  | .ending _ => True
  | .joining _ => True
  | _ => False

/-- The UART driver was not told to stop. -/
def UartUp : Phase → Prop
  | .uartJoining => False
  | .down => False
  | _ => True

theorem beforeDelete_of_mem {phase : Phase} {m : Module} (h : m ∈ phase.unjoined) :
    phase.BeforeDelete := by
  cases phase <;> trivial

end Phase

theorem mem_modules (m : Module) : m ∈ modules := by
  cases m <;> decide

namespace System

variable {s t : System} {m : Module} {act : Act}

/-- Nothing is left that can post to a module's queue on its own. -/
def Quiet (s : System) (m : Module) : Prop :=
  (∀ timer ∈ s.timer m, timer.armed = none) ∧ (∀ handler ∈ s.handlers, handler.1 ≠ m) ∧
    s.uart.NoCallback (·.1 = m)

instance (s : System) (m : Module) : Decidable (s.Quiet m) :=
  inferInstanceAs (Decidable (_ ∧ _))

def deletes (s : System) : Act → Option Module
  | .teardown =>
    match s.phase with
    | .deleting (.queueDelete m :: _) => some m
    | _ => none
  | _ => none

/-- A queue is only deleted when its module is quiet. -/
def QuietDelete (s : System) (act : Act) : Prop := ∀ m ∈ s.deletes act, s.Quiet m

instance (s : System) (act : Act) : Decidable (s.QuietDelete act) :=
  inferInstanceAs (Decidable (∀ _ ∈ _, _))

/-- No event was pushed into a deleted queue. -/
def Clean (s : System) : Prop := ∀ p ∈ s.pushes, p.deleted = false

structure Ordered (s : System) : Prop where
  undeleted : s.phase.BeforeDelete → ∀ m, (s.queue m).deleted = false
  joined : ∀ m, m ∉ s.phase.unjoined → s.thread m = .joined
  alive : s.phase.UartUp → s.uart.running = true ∧ s.uart.thread ≠ .exited

theorem init_ordered : Ordered init where
  undeleted _ _ := rfl
  joined m hm := absurd (mem_modules m) hm
  alive _ := ⟨rfl, by decide⟩

/-- While some thread runs there is no deleted queue. -/
theorem Ordered.undeleted_of_thread (h : s.Ordered) (hm : s.thread m ≠ .joined) (k : Module) :
    (s.queue k).deleted = false :=
  h.undeleted (Phase.beforeDelete_of_mem (not_imp_comm.mp (h.joined m) hm)) k

/-! ## What a step leaves alone -/

@[simp] theorem post_deleted (s : System) (m k : Module) (event : Event) :
    ((s.post m event).queue k).deleted = (s.queue k).deleted := by
  by_cases hk : k = m
  · subst hk
    simp [post]
  · simp [post, hk]

theorem post_clean {event : Event} (h : s.Clean) (hm : (s.queue m).deleted = false) :
    (s.post m event).Clean := by
  intro p hp
  rcases List.mem_append.mp hp with hold | hnew
  · exact h p hold
  · rw [List.mem_singleton.mp hnew]
    exact hm

theorem publish_eq (s : System) (ao : Module) (event : Event) :
    s.publish ao event = s ∨ s.publish ao event = s.post ao event := by
  unfold publish
  split_ifs
  · exact .inr rfl
  · exact .inl rfl

/-- What the threads of the active objects and the environment leave alone. -/
structure Frame (s t : System) : Prop where
  phase : t.phase = s.phase
  joined : ∀ m, s.thread m = .joined → t.thread m = .joined
  deleted : ∀ m, (t.queue m).deleted = (s.queue m).deleted
  running : t.uart.running = s.uart.running
  alive : s.uart.running = true → s.uart.thread ≠ .exited → t.uart.thread ≠ .exited

theorem Ordered.frame (h : s.Ordered) (hframe : Frame s t) : t.Ordered where
  undeleted hphase m := by
    rw [hframe.deleted]
    exact h.undeleted (hframe.phase ▸ hphase) m
  joined m hm := hframe.joined m (h.joined m (hframe.phase ▸ hm))
  alive hphase := by
    obtain ⟨hrunning, hthread⟩ := h.alive (hframe.phase ▸ hphase)
    exact ⟨hframe.running.trans hrunning, hframe.alive hrunning hthread⟩

theorem Frame.trans {u : System} (h : Frame s t) (h' : Frame t u) : Frame s u where
  phase := h'.phase.trans h.phase
  joined m hm := h'.joined m (h.joined m hm)
  deleted m := (h'.deleted m).trans (h.deleted m)
  running := h'.running.trans h.running
  alive hrunning hthread := h'.alive (h.running.trans hrunning) (h.alive hrunning hthread)

theorem post_frame (s : System) (m : Module) (event : Event) : Frame s (s.post m event) :=
  ⟨rfl, fun _ h => h, fun k => post_deleted s m k event, rfl, fun _ h => h⟩

theorem call_frame (s : System) (m : Module) (data : Option SlotRef) (answer : Submission)
    (c : Call) : Frame s (s.call m data answer c) := by
  cases c with
  | timerInit | timerArm | timerDisarm =>
    exact ⟨rfl, fun _ h => h, fun _ => rfl, rfl, fun _ h => h⟩
  | uartWrite | uartRead =>
    exact ⟨rfl, fun _ h => h, fun _ => rfl, by simp [call], fun _ h => by simpa [call] using h⟩
  | uartAbort =>
    exact ⟨rfl, fun _ h => h, fun _ => rfl, by simp [call, Uart.abort],
      fun _ h => by simpa [call, Uart.abort] using h⟩
  | publish ao event =>
    rcases publish_eq s ao event with h | h <;> rw [call, h]
    · exact ⟨rfl, fun _ h => h, fun _ => rfl, rfl, fun _ h => h⟩
    · exact post_frame s ao event

theorem update_joined {thread : Thread} (hm : s.thread m ≠ .joined) (k : Module)
    (hk : s.thread k = .joined) : Function.update s.thread m thread k = .joined := by
  have hne : k ≠ m := fun h => hm (h ▸ hk)
  rw [Function.update_of_ne hne, hk]

theorem dispatched_frame {result : Machine × List Call} (hm : s.thread m ≠ .joined) :
    Frame s (s.dispatched m result) :=
  ⟨rfl, update_joined hm, fun _ => rfl, rfl, fun _ h => h⟩

theorem setThread_frame {thread : Thread} (hm : s.thread m ≠ .joined) :
    Frame s (s.setThread m thread) :=
  ⟨rfl, update_joined hm, fun _ => rfl, rfl, fun _ h => h⟩

/-! ## The threads of the active objects -/

/-- A step of a thread's own. -/
def OfThread (m : Module) : Act → Prop
  | .threadStart k _ => k = m
  | .threadPop k _ => k = m
  | .threadCall k _ _ => k = m
  | _ => False

theorem threadStart_frame {answers : Answers} (h : s.threadStart m answers = some t) :
    s.thread m ≠ .joined ∧ Frame s t ∧ t.pushes = s.pushes := by
  unfold threadStart at h
  split_ifs at h with hthread
  cases h
  have hm : s.thread m ≠ .joined := by simp [hthread]
  exact ⟨hm, dispatched_frame hm, rfl⟩

theorem popped_frame (s : System) (m : Module) (events : List Event) :
    Frame s { s with queue := Function.update s.queue m { s.queue m with events } } := by
  refine ⟨rfl, fun _ h => h, fun k => ?_, rfl, fun _ h => h⟩
  by_cases hk : k = m
  · subst hk
    simp
  · simp [hk]

theorem threadPop_frame {answers : Answers} (h : s.threadPop m answers = some t) :
    s.thread m ≠ .joined ∧ Frame s t ∧ t.pushes = s.pushes := by
  unfold threadPop at h
  split_ifs at h with hthread
  have hm : s.thread m ≠ .joined := by simp [hthread]
  cases hevents : (s.queue m).events with
  | nil => simp [hevents] at h
  | cons event events =>
    simp only [hevents] at h
    split_ifs at h with hend
    · cases h
      exact ⟨hm, (popped_frame s m events).trans (setThread_frame hm), rfl⟩
    · cases h
      exact ⟨hm, (popped_frame s m events).trans (dispatched_frame hm), rfl⟩

theorem threadCall_eq_some {data : Option SlotRef} {answer : Submission}
    (h : s.threadCall m data answer = some t) :
    ∃ c calls, s.thread m = .running (c :: calls) ∧
      t = (s.setThread m (.running calls)).call m data answer c := by
  unfold threadCall at h
  split at h
  · rename_i c calls hthread
    cases h
    exact ⟨c, calls, hthread, rfl⟩
  · cases h

theorem call_clean {data : Option SlotRef} {answer : Submission} {c : Call} (h : s.Clean)
    (hdeleted : ∀ k, (s.queue k).deleted = false) : (s.call m data answer c).Clean := by
  cases c with
  | publish ao event =>
    rw [call]
    rcases publish_eq s ao event with heq | heq <;> rw [heq]
    · exact h
    · exact post_clean h (hdeleted ao)
  | timerInit | timerArm | timerDisarm | uartWrite | uartRead | uartAbort => exact h

/-- The threads of the active objects only take steps before the first queue is deleted. -/
theorem thread_step (hact : OfThread m act) (hstep : Step s act t) :
    s.thread m ≠ .joined ∧ Frame s t ∧
      ((∀ k, (s.queue k).deleted = false) → s.Clean → t.Clean) := by
  cases act with
  | threadStart k answers =>
    obtain ⟨hm, hframe, hpushes⟩ := threadStart_frame hstep
    exact ⟨hact ▸ hm, hframe, fun _ hclean => by rwa [Clean, hpushes]⟩
  | threadPop k answers =>
    obtain ⟨hm, hframe, hpushes⟩ := threadPop_frame hstep
    exact ⟨hact ▸ hm, hframe, fun _ hclean => by rwa [Clean, hpushes]⟩
  | threadCall k data answer =>
    obtain ⟨c, calls, hthread, rfl⟩ := threadCall_eq_some hstep
    have hm : s.thread k ≠ .joined := by simp [hthread]
    exact ⟨hact ▸ hm, (setThread_frame hm).trans (call_frame _ k data answer c),
      fun hdeleted hclean => call_clean hclean hdeleted⟩
  | _ => cases hact

/-! ## Timers and the UART -/

/-- Every module whose queue is deleted is quiet. -/
def Silent (s : System) : Prop := ∀ m, (s.queue m).deleted = true → s.Quiet m

theorem Silent.mono (h : s.Silent) (hframe : Frame s t) (hquiet : ∀ m, s.Quiet m → t.Quiet m) :
    t.Silent := fun m hm => hquiet m (h m (hframe.deleted m ▸ hm))

theorem Silent.undeleted (h : s.Silent) (hm : ¬ s.Quiet m) : (s.queue m).deleted = false := by
  rw [← Bool.not_eq_true]
  exact mt (h m) hm

theorem expire_step (h : s.expire m = some t) :
    Frame s t ∧ (∀ k, s.Quiet k → t.Quiet k) ∧ t.pushes = s.pushes := by
  have hother {timer : Timer} (htimer : s.timer m = some timer) (harmed : timer.armed ≠ none)
      {k : Module} (hk : s.Quiet k) : m ≠ k := by
    rintro rfl
    exact harmed (hk.1 timer htimer)
  unfold expire at h
  split at h
  · rename_i handler htimer
    cases h
    refine ⟨⟨rfl, fun _ h => h, fun _ => rfl, rfl, fun _ h => h⟩, fun k hk => ⟨?_, ?_, hk.2.2⟩, rfl⟩
    · have hkm := (hother htimer nofun hk).symm
      simpa [setTimer, hkm] using hk.1
    · exact List.forall_mem_cons.mpr ⟨hother htimer nofun hk, hk.2.1⟩
  · rename_i handler htimer
    cases h
    refine ⟨⟨rfl, fun _ h => h, fun _ => rfl, rfl, fun _ h => h⟩,
      fun k hk => ⟨hk.1, ?_, hk.2.2⟩, rfl⟩
    exact List.forall_mem_cons.mpr ⟨hother htimer nofun hk, hk.2.1⟩
  · cases h

theorem handle_step {handler : Module × Event} (h : s.handle handler = some t) :
    Frame s t ∧ (∀ k, s.Quiet k → t.Quiet k) ∧ (s.Silent → s.Clean → t.Clean) := by
  unfold handle at h
  split_ifs at h with hmem
  cases h
  refine ⟨⟨rfl, fun _ h => h, fun k => post_deleted _ _ k _, rfl, fun _ h => h⟩,
    fun k hk => ⟨hk.1, ?_, hk.2.2⟩, fun hsilent hclean => ?_⟩
  · exact fun other hother => hk.2.1 other (List.mem_of_mem_erase hother)
  · exact post_clean hclean (hsilent.undeleted fun hquiet => hquiet.2.1 handler hmem rfl)

theorem uartCheck_step {uart : Uart (Module × Event)} (h : s.uart.check = some uart) :
    Frame s { s with uart } ∧ ∀ k, s.Quiet k → Quiet { s with uart } k := by
  obtain ⟨-, rfl⟩ := Uart.check_eq_some h
  exact ⟨⟨rfl, fun _ h => h, fun _ => rfl, rfl, fun hrunning _ => by simp [hrunning]⟩,
    fun k hk => ⟨hk.1, hk.2.1, hk.2.2.check h⟩⟩

theorem uartComplete_step {n : ℕ} {positive : Bool} (h : s.uartComplete n positive = some t) :
    Frame s t ∧ (∀ k, s.Quiet k → t.Quiet k) ∧ (s.Silent → s.Clean → t.Clean) := by
  unfold uartComplete at h
  cases hcomplete : s.uart.complete n positive with
  | none => simp [hcomplete] at h
  | some result =>
    obtain ⟨uart, cb⟩ := result
    obtain ⟨-, -, -, hthread, hrunning, -⟩ := Uart.complete_eq_some hcomplete
    have hframe : Frame s { s with uart } :=
      ⟨rfl, fun _ h => h, fun _ => rfl, hrunning, fun _ _ => by simp [hthread]⟩
    have hquiet (k : Module) (hk : s.Quiet k) : Quiet { s with uart } k :=
      ⟨hk.1, hk.2.1, (hk.2.2.complete hcomplete).1⟩
    rw [hcomplete] at h
    cases cb with
    | none =>
      cases h
      exact ⟨hframe, hquiet, fun _ hclean => hclean⟩
    | some cb =>
      cases h
      refine ⟨hframe.trans (post_frame _ _ _), hquiet, fun hsilent hclean => ?_⟩
      refine post_clean hclean (hsilent.undeleted fun hk => ?_)
      exact (hk.2.2.complete hcomplete).2 cb rfl rfl

/-! ## The main thread -/

theorem publish_step {ao : Module} {event : Event} (h : s.Ordered)
    (hstep : Step s (.publish ao event) t) : t.Ordered ∧ (s.Silent → t.Silent) ∧
      (s.Clean → t.Clean) := by
  cases hphase : s.phase with
  | up =>
    simp only [Step, apply, hphase, Option.some.injEq] at hstep
    subst hstep
    have hdeleted := h.undeleted (by simp [hphase, Phase.BeforeDelete])
    rcases publish_eq s ao event with heq | heq <;> rw [heq]
    · exact ⟨h, id, id⟩
    · have hframe := post_frame s ao event
      exact ⟨h.frame hframe, fun hsilent => hsilent.mono hframe fun _ hk => hk,
        fun hclean => post_clean hclean (hdeleted ao)⟩
  | _ => simp [Step, apply, hphase] at hstep

theorem stop_step {caller : Caller} (h : s.Ordered) (hstep : Step s (.stop caller) t) :
    t.Ordered ∧ (s.Silent → t.Silent) ∧ (s.Clean → t.Clean) := by
  cases hphase : s.phase with
  | up =>
    simp only [Step, apply, hphase, Option.some.injEq] at hstep
    subst hstep
    refine ⟨⟨fun _ => h.undeleted (by simp [hphase, Phase.BeforeDelete]), fun m hm => ?_,
      fun _ => h.alive (by simp [hphase, Phase.UartUp])⟩, id, id⟩
    cases caller <;> exact absurd (mem_modules m) hm
  | _ => simp [Step, apply, hphase] at hstep

theorem uartStop_step {data : Option SlotRef} {answer : Submission} (h : s.Ordered)
    (hstep : Step s (.uartStop data answer) t) :
    t.Ordered ∧ (s.Silent → t.Silent) ∧ (s.Clean → t.Clean) := by
  cases hphase : s.phase with
  | uartStopping =>
    simp only [Step, apply, hphase, Option.some.injEq] at hstep
    subst hstep
    refine ⟨⟨fun hbefore => hbefore.elim, fun m _ => h.joined m (by simp [hphase, Phase.unjoined]),
      fun hup => hup.elim⟩, fun hsilent m hm => ?_, id⟩
    obtain ⟨htimer, hhandlers, huart⟩ := hsilent m hm
    exact ⟨htimer, hhandlers, huart.stop⟩
  | _ => simp [Step, apply, hphase] at hstep

theorem deleteStep_quiet {d : DeleteStep} {k : Module} (h : s.Quiet k) :
    (s.deleteStep d).Quiet k := by
  cases d with
  | queueDelete m => exact h
  | timerDestroy m =>
    refine ⟨fun timer htimer => ?_, h.2.1, h.2.2⟩
    by_cases hk : k = m
    · subst hk
      simp [deleteStep, setTimer] at htimer
    · simp only [deleteStep, setTimer, Function.update_of_ne hk] at htimer
      exact h.1 timer htimer

theorem deleteStep_silent {d : DeleteStep} (h : s.Silent)
    (hquiet : ∀ m, d = .queueDelete m → s.Quiet m) : (s.deleteStep d).Silent := by
  intro k hk
  apply deleteStep_quiet
  cases d with
  | queueDelete m =>
    by_cases hkm : k = m
    · exact hquiet k (hkm ▸ rfl)
    · simp only [deleteStep, Function.update_of_ne hkm] at hk
      exact h k hk
  | timerDestroy m => exact h k hk

theorem ending_step {rest : List Module} (h : s.Ordered) (hphase : s.phase = .ending rest)
    (hstep : s.teardown = some t) :
    t.Ordered ∧ (s.Silent → t.Silent) ∧ (s.Clean → t.Clean) := by
  have hdeleted := h.undeleted (by simp [hphase, Phase.BeforeDelete])
  have halive := h.alive (by simp [hphase, Phase.UartUp])
  have hjoined (m : Module) : m ∉ modules → s.thread m = .joined := (absurd (mem_modules m) ·)
  cases rest with
  | nil =>
    simp only [teardown, hphase, Option.some.injEq] at hstep
    subst hstep
    exact ⟨⟨fun _ => hdeleted, hjoined, fun _ => halive⟩, id, id⟩
  | cons m rest =>
    simp only [teardown, hphase, Option.some.injEq] at hstep
    subst hstep
    refine ⟨⟨fun _ k => ?_, fun k hk => hjoined k ?_, fun _ => halive⟩, fun hsilent k hk => ?_,
      fun hclean => ?_⟩
    · exact (post_deleted s m k .fsmEnd).trans (hdeleted k)
    · split_ifs at hk <;> exact hk
    · exact hsilent k ((post_deleted s m k .fsmEnd).symm.trans hk)
    · have hpost : (s.post m .fsmEnd).Clean := post_clean hclean (hdeleted m)
      exact hpost

theorem joining_step {rest : List Module} (h : s.Ordered) (hphase : s.phase = .joining rest)
    (hstep : s.teardown = some t) :
    t.Ordered ∧ (s.Silent → t.Silent) ∧ (s.Clean → t.Clean) := by
  have hdeleted := h.undeleted (by simp [hphase, Phase.BeforeDelete])
  have halive := h.alive (by simp [hphase, Phase.UartUp])
  have hjoined (m : Module) (hm : m ∉ rest) : s.thread m = .joined :=
    h.joined m (by simpa [hphase, Phase.unjoined] using hm)
  cases rest with
  | nil =>
    simp only [teardown, hphase, Option.some.injEq] at hstep
    subst hstep
    exact ⟨⟨fun hbefore => hbefore.elim, fun m _ => hjoined m List.not_mem_nil, fun _ => halive⟩,
      id, id⟩
  | cons m rest =>
    simp only [teardown, hphase] at hstep
    split_ifs at hstep
    cases hstep
    refine ⟨⟨fun _ => hdeleted, fun k hk => ?_, fun _ => halive⟩, id, id⟩
    by_cases hkm : k = m
    · subst hkm
      exact Function.update_self ..
    · have hk' : k ∉ m :: rest := by simpa [hkm, Phase.unjoined] using hk
      exact (Function.update_of_ne hkm ..).trans (hjoined k hk')

theorem deleting_step {rest : List DeleteStep} (h : s.Ordered) (hphase : s.phase = .deleting rest)
    (hstep : s.teardown = some t) :
    t.Ordered ∧ (s.QuietDelete .teardown → s.Silent → t.Silent) ∧ (s.Clean → t.Clean) := by
  have halive := h.alive (by simp [hphase, Phase.UartUp])
  have hjoined (m : Module) : s.thread m = .joined :=
    h.joined m (by simp [hphase, Phase.unjoined])
  cases rest with
  | nil =>
    simp only [teardown, hphase, Option.some.injEq] at hstep
    subst hstep
    exact ⟨⟨fun hbefore => hbefore.elim, fun m _ => hjoined m, fun _ => halive⟩, fun _ => id, id⟩
  | cons d rest =>
    simp only [teardown, hphase, Option.some.injEq] at hstep
    subst hstep
    refine ⟨⟨fun hbefore => hbefore.elim, fun m _ => ?_, fun _ => ?_⟩, fun hquiet hsilent => ?_,
      ?_⟩
    · cases d <;> exact hjoined m
    · cases d <;> exact halive
    · refine deleteStep_silent hsilent fun m hd => hquiet m ?_
      simp [deletes, hphase, hd]
    · cases d <;> exact id

theorem teardown_step (h : s.Ordered) (hstep : Step s .teardown t) :
    t.Ordered ∧ (s.QuietDelete .teardown → s.Silent → t.Silent) ∧ (s.Clean → t.Clean) := by
  change s.teardown = some t at hstep
  cases hphase : s.phase with
  | up | uartStopping | down => simp [teardown, hphase] at hstep
  | ending rest =>
    obtain ⟨hordered, hsilent, hclean⟩ := ending_step h hphase hstep
    exact ⟨hordered, fun _ => hsilent, hclean⟩
  | joining rest =>
    obtain ⟨hordered, hsilent, hclean⟩ := joining_step h hphase hstep
    exact ⟨hordered, fun _ => hsilent, hclean⟩
  | deleting rest => exact deleting_step h hphase hstep
  | busDeleting =>
    simp only [teardown, hphase, Option.some.injEq] at hstep
    subst hstep
    exact ⟨⟨fun hbefore => hbefore.elim, fun m _ => h.joined m (by simp [hphase, Phase.unjoined]),
      fun _ => h.alive (by simp [hphase, Phase.UartUp])⟩, fun _ => id, id⟩
  | uartJoining =>
    simp only [teardown, hphase] at hstep
    split_ifs at hstep
    cases hstep
    exact ⟨⟨fun hbefore => hbefore.elim, fun m _ => h.joined m (by simp [hphase, Phase.unjoined]),
      fun hup => hup.elim⟩, fun _ => id, id⟩

/-! ## Runs -/

/-- What one step keeps: the order always, the silence of the deleted queues when the step deletes
none but a quiet module's, and then the record. -/
theorem step_keeps (h : s.Ordered) (hstep : Step s act t) :
    t.Ordered ∧ (s.QuietDelete act → s.Silent → t.Silent) ∧ (s.Silent → s.Clean → t.Clean) := by
  have hthread {m : Module} (hact : OfThread m act) :
      t.Ordered ∧ (s.QuietDelete act → s.Silent → t.Silent) ∧ (s.Silent → s.Clean → t.Clean) := by
    obtain ⟨hm, hframe, hclean⟩ := thread_step hact hstep
    have hdeleted := h.undeleted_of_thread hm
    refine ⟨h.frame hframe, fun _ _ k hk => ?_, fun _ => hclean hdeleted⟩
    rw [hframe.deleted, hdeleted] at hk
    cases hk
  cases act with
  | publish ao event =>
    obtain ⟨hordered, hsilent, hclean⟩ := publish_step h hstep
    exact ⟨hordered, fun _ => hsilent, fun _ => hclean⟩
  | stop caller =>
    obtain ⟨hordered, hsilent, hclean⟩ := stop_step h hstep
    exact ⟨hordered, fun _ => hsilent, fun _ => hclean⟩
  | teardown =>
    obtain ⟨hordered, hsilent, hclean⟩ := teardown_step h hstep
    exact ⟨hordered, hsilent, fun _ => hclean⟩
  | uartStop data answer =>
    obtain ⟨hordered, hsilent, hclean⟩ := uartStop_step h hstep
    exact ⟨hordered, fun _ => hsilent, fun _ => hclean⟩
  | threadStart m answers => exact hthread (m := m) rfl
  | threadPop m answers => exact hthread (m := m) rfl
  | threadCall m data answer => exact hthread (m := m) rfl
  | expire m =>
    obtain ⟨hframe, hquiet, hpushes⟩ := expire_step hstep
    exact ⟨h.frame hframe, fun _ hsilent => hsilent.mono hframe hquiet,
      fun _ hclean => by rwa [Clean, hpushes]⟩
  | handle handler =>
    obtain ⟨hframe, hquiet, hclean⟩ := handle_step hstep
    exact ⟨h.frame hframe, fun _ hsilent => hsilent.mono hframe hquiet, hclean⟩
  | uartCheck =>
    obtain ⟨uart, hcheck, rfl⟩ := Option.map_eq_some_iff.mp hstep
    obtain ⟨hframe, hquiet⟩ := uartCheck_step hcheck
    exact ⟨h.frame hframe, fun _ hsilent => hsilent.mono hframe hquiet, fun _ hclean => hclean⟩
  | uartComplete n positive =>
    obtain ⟨hframe, hquiet, hclean⟩ := uartComplete_step hstep
    exact ⟨h.frame hframe, fun _ hsilent => hsilent.mono hframe hquiet, hclean⟩

theorem run_ordered {acts : List Act} (h : Run Step init acts s) : s.Ordered :=
  h.invariant init_ordered fun _ _ _ hordered hstep => (step_keeps hordered hstep).1

theorem quiet_run_clean {acts : List Act} (h : Run (Guarded QuietDelete Step) init acts s) :
    s.Clean := by
  have hinit : init.Silent := fun m hm => by cases hm
  have hkeep : s.Ordered ∧ s.Silent ∧ s.Clean := by
    refine h.invariant (P := fun s => s.Ordered ∧ s.Silent ∧ s.Clean)
      ⟨init_ordered, hinit, fun p hp => by cases hp⟩ ?_
    rintro s act t ⟨hordered, hsilent, hclean⟩ ⟨hquiet, hstep⟩
    obtain ⟨h1, h2, h3⟩ := step_keeps hordered hstep
    exact ⟨h1, h2 hquiet hsilent, h3 hsilent hclean⟩
  exact hkeep.2.2

end System

end SnipeIt.ActiveObject
