import SnipeIt.ActiveObject.Steps
import SnipeIt.ActiveObject.Deletion

/-! # Telling the modules to end

`app_end` posts one event to each module, into a queue that can be full, and
`app_join` then waits for every thread. A thread that was not told to end never
leaves its loop.
-/

namespace SnipeIt.ActiveObject
open Hal Support

/-- The modules that `app_end` has still to post to. -/
def Phase.unposted : Phase → List Module
  | .up => modules
  | .ending rest => rest
  | _ => []

def Phase.joins : Phase → Bool
  | .joining _ => true
  | _ => false

/-- Every act but that of `main`, which joins the modules without asking them to end. -/
def Act.bridge : Act → Bool
  | .stop .main => false
  | _ => true

theorem subscribed_ne_fsmEnd {ao : Module} {event : Event} (h : subscribed ao event = true) :
    event ≠ .fsmEnd := by
  rintro rfl
  cases ao <;> cases h

namespace System

variable {s t : System} {m k : Module} {act : Act}

/-- The event that ends a module is in its queue, or its thread has left the loop. -/
def Told (s : System) (m : Module) : Prop :=
  .fsmEnd ∈ (s.queue m).events ∨ s.thread m = .ended ∨ s.thread m = .joined

instance (s : System) (m : Module) : Decidable (s.Told m) := inferInstanceAs (Decidable (_ ∨ _))

/-- While the threads are joined every module was told to end. -/
def JoinTold (s : System) : Prop := s.phase.joins = true → ∀ m ∈ modules, s.Told m

instance (s : System) : Decidable s.JoinTold := inferInstanceAs (Decidable (_ → _))

/-- The module that the next statement of `app_end` posts to. -/
def endTarget (s : System) : Act → Option Module
  | .teardown =>
    match s.phase with
    | .ending (m :: _) => some m
    | _ => none
  | _ => none

/-- The event that ends a module finds room in its queue. -/
def EndFits (s : System) (act : Act) : Prop := ∀ m ∈ s.endTarget act, (s.queue m).HasRoom

/-- The steps of a system that `ddl_bridge_stop` brings down. -/
def BridgeStep (s : System) (act : Act) (t : System) : Prop := act.bridge = true ∧ Step s act t

/-! ## Who was told -/

theorem told_setThread_of_ne {thread : Thread} (hk : k ≠ m) :
    (s.setThread m thread).Told k ↔ s.Told k := by
  simp [Told, setThread, hk]

theorem told_setThread_running {calls calls' : List Call} (hthread : s.thread m = .running calls) :
    (s.setThread m (.running calls')).Told k ↔ s.Told k := by
  by_cases hk : k = m
  · subst hk
    simp [Told, setThread, hthread]
  · exact told_setThread_of_ne hk

theorem told_post {event : Event} (hevent : event ≠ .fsmEnd) :
    (s.post m event).Told k ↔ s.Told k := by
  by_cases hk : k = m
  · subst hk
    unfold Told post Queue.push
    split_ifs <;> simp [hevent.symm]
  · simp [Told, post, hk]

theorem told_post_fsmEnd (hroom : (s.queue m).HasRoom) : (s.post m .fsmEnd).Told m := by
  simp [Told, post, Queue.push, hroom]

theorem told_post_refused {event : Event} (hroom : ¬ (s.queue m).HasRoom) :
    (s.post m event).Told k ↔ s.Told k := by
  by_cases hk : k = m
  · subst hk
    simp [Told, post, Queue.push, hroom]
  · simp [Told, post, hk]

theorem told_publish {ao : Module} {event : Event} :
    (s.publish ao event).Told k ↔ s.Told k := by
  unfold publish
  split_ifs with hsub
  · exact told_post (subscribed_ne_fsmEnd (Bool.and_eq_true_iff.mp hsub).2)
  · exact Iff.rfl

theorem told_call {data : Option SlotRef} {answer : Submission} {c : Call} :
    (s.call m data answer c).Told k ↔ s.Told k := by
  cases c with
  | publish ao event => exact told_publish
  | _ => exact Iff.rfl

theorem told_started {result : Machine × List Call} (hthread : s.thread m = .created) :
    (s.dispatched m result).Told k ↔ s.Told k := by
  by_cases hk : k = m
  · subst hk
    simp [Told, dispatched, hthread]
  · simp [Told, dispatched, hk]

theorem told_poppedEvent {event : Event} {events : List Event} {result : Machine × List Call}
    (hthread : s.thread m = .running []) (hevents : (s.queue m).events = event :: events)
    (hend : event ≠ .fsmEnd) : ((s.popped m events).dispatched m result).Told k ↔ s.Told k := by
  by_cases hk : k = m
  · subst hk
    simp [Told, dispatched, popped, hthread, hevents, hend.symm]
  · simp [Told, dispatched, popped, hk]

theorem told_poppedEnd {events : List Event} (hevents : (s.queue m).events = .fsmEnd :: events) :
    ((s.popped m events).setThread m .ended).Told k ↔ s.Told k := by
  by_cases hk : k = m
  · subst hk
    simp [Told, setThread, hevents]
  · simp [Told, setThread, popped, hk]

theorem told_joined (hthread : s.thread m = .ended) :
    (s.setThread m .joined).Told k ↔ s.Told k := by
  by_cases hk : k = m
  · subst hk
    simp [Told, setThread, hthread]
  · exact told_setThread_of_ne hk

theorem told_deleteStep {d : DeleteStep} : (s.deleteStep d).Told k ↔ s.Told k := by
  cases d with
  | queueDelete m =>
    by_cases hk : k = m
    · subst hk
      simp [Told, deleteStep]
    · simp [Told, deleteStep, hk]
  | timerDestroy m => exact Iff.rfl

/-- Only the event of `app_end` tells a module to end. -/
theorem told_step (htyped : s.Typed) (hstep : Step s act t) (hk : k ∉ s.endTarget act) :
    t.Told k ↔ s.Told k := by
  cases step_effect hstep with
  | published _ hsub => exact told_post (subscribed_ne_fsmEnd hsub)
  | @endPosted m rest hphase hroom =>
    have hne : k ≠ m := by
      rintro rfl
      exact hk (by simp [endTarget, hphase])
    simp [Told, post, hne]
  | endRefused _ hroom => exact told_post_refused hroom
  | joined _ hended => exact told_joined hended
  | deleted => exact told_deleteStep
  | started hthread => exact told_started hthread
  | poppedEnd _ hevents => exact told_poppedEnd hevents
  | poppedEvent hthread hevents hend => exact told_poppedEvent hthread hevents hend
  | called hthread => exact told_call.trans (told_setThread_running hthread)
  | handled hmem => exact told_post (htyped.handler_ne_fsmEnd hmem)
  | calledBack hcomplete => exact told_post (htyped.callback_ne_fsmEnd hcomplete)
  | _ => exact Iff.rfl

/-! ## The posts of `app_end` -/

/-- A module was told to end exactly when `app_end` has come past it. -/
structure EndOrder (s : System) : Prop where
  typed : s.Typed
  nodup : s.phase.unposted.Nodup
  told : ∀ m, s.Told m ↔ m ∉ s.phase.unposted

theorem init_endOrder : EndOrder init where
  typed := init_typed
  nodup := by decide
  told m := by simp [Told, init, Phase.unposted, mem_modules]

theorem EndOrder.joinTold (h : s.EndOrder) : s.JoinTold := by
  intro hjoins m _
  rw [h.told m]
  cases hphase : s.phase with
  | joining rest => simp [Phase.unposted]
  | _ => simp [hphase, Phase.joins] at hjoins

theorem endTarget_eq_some (h : s.endTarget act = some m) :
    act = .teardown ∧ ∃ rest, s.phase = .ending (m :: rest) := by
  unfold endTarget at h
  split at h
  · split at h
    · rename_i rest hphase
      cases h
      exact ⟨rfl, rest, hphase⟩
    · cases h
  · cases h

theorem unposted_step (hact : act.bridge = true) (hstep : Step s act t)
    (htarget : s.endTarget act = none) : t.phase.unposted = s.phase.unposted := by
  cases step_effect hstep with
  | @stopped caller hup =>
    cases caller with
    | ddlBridgeStop => simp [stopPhase, Phase.unposted, hup]
    | main => cases hact
  | endPosted hphase | endRefused hphase => simp [endTarget, hphase] at htarget
  | allPosted hphase | allJoined hphase | joined hphase | allDeleted hphase | deleted hphase
  | busDeleted hphase | uartJoined hphase | uartStopped hphase =>
    simp [Phase.unposted, hphase]
  | @called m data answer c calls =>
    have hframe := call_frame (s.setThread m (.running calls)) m data answer c
    rw [hframe.phase]
    rfl
  | _ => rfl

theorem EndOrder.step (h : s.EndOrder) (hstep : BridgeStep s act t) (hfits : s.EndFits act) :
    t.EndOrder := by
  have htyped := h.typed.step hstep.2
  cases htarget : s.endTarget act with
  | none =>
    have hunposted := unposted_step hstep.1 hstep.2 htarget
    refine ⟨htyped, hunposted ▸ h.nodup, fun m => ?_⟩
    rw [told_step h.typed hstep.2 (by simp [htarget]), hunposted]
    exact h.told m
  | some m =>
    have hroom := hfits m htarget
    obtain ⟨rfl, rest, hphase⟩ := endTarget_eq_some htarget
    have hnodup := h.nodup
    rw [hphase] at hnodup
    obtain ⟨hm, hrest⟩ := List.nodup_cons.mp hnodup
    have ht : t = { s.post m .fsmEnd with phase := .ending rest } := by
      have happly := hstep.2
      simpa [Step, apply, teardown, hphase, hroom] using happly.symm
    refine ⟨htyped, by rw [ht]; exact hrest, fun k => ?_⟩
    by_cases hk : k = m
    · subst hk
      rw [ht]
      exact iff_of_true (told_post_fsmEnd hroom) hm
    · rw [told_step h.typed hstep.2 (by simp [endTarget, hphase, Ne.symm hk]), h.told k, hphase, ht]
      simp [Phase.unposted, hk]

/-- A module whose queue is full is joined without having been told to end. -/
theorem EndOrder.refused (h : s.EndOrder) (hstep : BridgeStep s act t) (hfits : ¬ s.EndFits act) :
    ¬ t.JoinTold := by
  simp only [EndFits, not_forall] at hfits
  obtain ⟨m, htarget, hroom⟩ := hfits
  obtain ⟨rfl, rest, hphase⟩ := endTarget_eq_some htarget
  have ht : t = { s.post m .fsmEnd with phase := .joining modules } := by
    have happly := hstep.2
    simpa [Step, apply, teardown, hphase, hroom] using happly.symm
  intro hjoin
  rw [ht] at hjoin
  have hm : s.Told m := (told_post_refused hroom).mp (hjoin rfl m (mem_modules m))
  exact (h.told m).mp hm (by simp [hphase, Phase.unposted])

end System

/-- Shutdown: every module that is joined was told to end, in every state of a run, exactly when
every event of `app_end` in it finds room in the module's queue. -/
theorem joined_modules_told_iff {acts : List Act} {s : System} :
    Run (Into System.JoinTold System.BridgeStep) System.init acts s ↔
      Run (Guarded System.EndFits System.BridgeStep) System.init acts s :=
  Run.into_iff_guarded System.init_endOrder
    (fun _ _ _ horder hstep hfits =>
      ⟨horder.step hstep hfits, (horder.step hstep hfits).joinTold⟩)
    (fun _ _ _ horder hstep hfits => horder.refused hstep hfits)

/-- The scheduler is started, and does not come to take the next four ticks. -/
def endRefused : List Act :=
  begin .scheduler 1 ++ [.publish .scheduler .start] ++ turn .scheduler 2 ++
  (List.replicate 4 [.expire .scheduler, .handle (.scheduler, .tick)]).flatten ++
  [.stop .ddlBridgeStop, .teardown]

theorem joined_without_end :
    ∃ s, Run System.BridgeStep System.init endRefused s ∧ ¬ s.JoinTold ∧
      ∀ m ∈ modules, ¬ s.Told m := by
  have hrefused : ((System.init.exec (fun _ act => act.bridge) endRefused).map
      fun s => decide (¬ s.JoinTold ∧ ∀ m ∈ modules, ¬ s.Told m)) = some true := by decide
  obtain ⟨s, hexec, hnobody⟩ := Option.map_eq_some_iff.mp hrefused
  have hrun : Run System.BridgeStep System.init endRefused s := System.run_of_exec hexec
  exact ⟨s, hrun, of_decide_eq_true hnobody⟩

end SnipeIt.ActiveObject
