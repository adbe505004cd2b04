import SnipeIt.Phone.Pacer
import SnipeIt.Support.Run

/-! # Clearing a stale overlay

The watchdog clears the overlay when the time of the last message is too long
ago, and then sets the time to zero, which means that there is nothing to clear.
It does not look whether the time is still the one that it has read.
-/

namespace SnipeIt.Phone
open Support

variable {F : Type*}

/-- A step of a handler, of the pacer, of the watchdog, or of the mock data. -/
inductive DetectionOp (F : Type*) where
  | trySend (batch : DetectionBatch F)
  | stamp
  | receive
  | track
  | emit
  | watch
  | mock (targets : List (DetectedTarget F))

structure DetectionAct (F : Type*) where
  now : ℤ
  op : DetectionOp F

/-- The client, and whether its overlay is made of detections from the WebSocket. -/
structure Overlay (F : Type*) where
  client : DetectionClient F
  clock : ℤ
  fromWebSocket : Bool

namespace Overlay

def created (now : ℤ) : Overlay F := ⟨DetectionClient.created now, now, false⟩

/-- The overlay shows detections from the WebSocket. -/
def Shown (s : Overlay F) : Prop :=
  s.client.detectedTargets.isEmpty = false ∧ s.fromWebSocket = true

instance (s : Overlay F) : Decidable s.Shown := inferInstanceAs (Decidable (_ ∧ _))

/-- The watchdog has a time to look at, or a handler is about to write one. -/
def Armed (s : Overlay F) : Prop := 0 < s.client.lastWsDetectionAt ∨ 0 < s.client.handing

def StaysArmed (s : Overlay F) : Prop := s.Shown → s.Armed

/-- The watchdog sets the time to zero while a handler is about to write it, or when nothing is
shown, queued or held by the pacer. -/
def ResetFits (s : Overlay F) (a : DetectionAct F) : Prop :=
  match a.op with
  | .watch => s.client.watchdog = .resetting →
      0 < s.client.handing ∨ (¬ s.Shown ∧ s.client.AtRest)
  | _ => True

instance (s : Overlay F) (a : DetectionAct F) : Decidable (s.ResetFits a) :=
  match a with
  | ⟨_, .trySend _⟩ => inferInstanceAs (Decidable True)
  | ⟨_, .stamp⟩ => inferInstanceAs (Decidable True)
  | ⟨_, .receive⟩ => inferInstanceAs (Decidable True)
  | ⟨_, .track⟩ => inferInstanceAs (Decidable True)
  | ⟨_, .emit⟩ => inferInstanceAs (Decidable True)
  | ⟨_, .watch⟩ => inferInstanceAs (Decidable (_ → _))
  | ⟨_, .mock _⟩ => inferInstanceAs (Decidable True)

variable [KotlinFloat F]

def apply (s : Overlay F) (a : DetectionAct F) : Option (Overlay F) :=
  if s.clock ≤ a.now then
    match a.op with
    | .trySend batch => some ⟨s.client.trySend batch, a.now, s.fromWebSocket⟩
    | .stamp => (s.client.stamp a.now).map (⟨·, a.now, s.fromWebSocket⟩)
    | .receive => (s.client.receive a.now).map (⟨·, a.now, s.fromWebSocket⟩)
    | .track => (s.client.track a.now).map (⟨·, a.now, s.fromWebSocket⟩)
    | .emit => (s.client.emit a.now).map (⟨·, a.now, true⟩)
    | .watch => (s.client.watch a.now).map (⟨·, a.now, s.fromWebSocket⟩)
    | .mock targets => some ⟨{ s.client with detectedTargets := targets }, a.now, false⟩
  else none

def Step (s : Overlay F) (a : DetectionAct F) (t : Overlay F) : Prop := s.apply a = some t

/-- What is shown, queued or held by the pacer has its time, or will have it. -/
structure Guarding (s : Overlay F) : Prop where
  clock : 0 < s.clock
  shown : s.Shown → s.Armed
  work : ¬ s.client.AtRest → s.Armed

variable {s t : Overlay F} {a : DetectionAct F} {acts : List (DetectionAct F)}

omit [KotlinFloat F] in
/-- A turn of the watchdog takes the time only where nothing needs it. -/
theorem Guarding.watch (hs : s.Guarding) {now : ℤ} (hnow : 0 < now) {client : DetectionClient F}
    (hwatch : s.client.watch now = some client) (hfit : s.ResetFits ⟨now, .watch⟩) :
    Guarding ⟨client, now, s.fromWebSocket⟩ := by
  have hkept := DetectionClient.watch_watched hwatch
  have hrest : client.AtRest ↔ s.client.AtRest := by
    rw [DetectionClient.AtRest, DetectionClient.AtRest, hkept.detectionQueue, hkept.pacer]
  have hshown : Shown ⟨client, now, s.fromWebSocket⟩ → s.Shown := by
    rintro ⟨hfull, hfrom⟩
    rcases hkept.detectedTargets with hsame | hempty
    · exact ⟨hsame ▸ hfull, hfrom⟩
    · simp [hempty] at hfull
  have harmed : s.Armed → ¬ (¬ s.Shown ∧ s.client.AtRest) →
      Armed ⟨client, now, s.fromWebSocket⟩ := by
    intro hleft hneeded
    by_cases hreset : s.client.watchdog = .resetting
    · rcases hfit hreset with hhanding | hnothing
      · exact Or.inr (hkept.handing ▸ hhanding)
      · exact absurd hnothing hneeded
    · rw [Armed, hkept.handing, hkept.lastWsDetectionAt.resolve_right hreset]
      exact hleft
  refine ⟨hnow, fun h => ?_, fun h => ?_⟩
  · exact harmed (hs.shown (hshown h)) fun hnot => hnot.1 (hshown h)
  · exact harmed (hs.work (hrest.not.mp h)) fun hnot => hrest.not.mp h hnot.2

theorem Guarding.step (hs : s.Guarding) (h : Step s a t) (hfit : s.ResetFits a) : t.Guarding := by
  obtain ⟨now, op⟩ := a
  unfold Step apply at h
  split_ifs at h with hclock
  have hnow : 0 < now := by
    have := hs.clock
    dsimp only at hclock
    omega
  cases op with
  | trySend batch =>
    cases h
    have harmed : Armed ⟨s.client.trySend batch, now, s.fromWebSocket⟩ :=
      Or.inr (Nat.succ_pos s.client.handing)
    exact ⟨hnow, fun _ => harmed, fun _ => harmed⟩
  | stamp =>
    obtain ⟨client, hstamp, rfl⟩ := Option.map_eq_some_iff.mp h
    obtain ⟨-, rfl⟩ := DetectionClient.stamp_eq_some.mp hstamp
    exact ⟨hnow, fun _ => Or.inl hnow, fun _ => Or.inl hnow⟩
  | receive =>
    obtain ⟨client, hreceive, rfl⟩ := Option.map_eq_some_iff.mp h
    obtain ⟨-, latest, hlatest, rfl⟩ := DetectionClient.receive_eq_some.mp hreceive
    have hbusy := DetectionClient.not_atRest_of_mem (List.mem_of_getLast? hlatest)
    exact ⟨hnow, fun _ => hs.work hbusy, fun _ => hs.work hbusy⟩
  | track =>
    obtain ⟨client, htrack, rfl⟩ := Option.map_eq_some_iff.mp h
    obtain ⟨latest, resume, hpacer, -, rfl⟩ := DetectionClient.track_eq_some.mp htrack
    have hbusy : ¬ s.client.AtRest := fun hrest => by
      simpa [hpacer, PacerState.Idle] using hrest.2
    exact ⟨hnow, fun _ => hs.work hbusy, fun _ => hs.work hbusy⟩
  | emit =>
    obtain ⟨client, hemit, rfl⟩ := Option.map_eq_some_iff.mp h
    obtain ⟨tracked, hpacer, rfl⟩ := DetectionClient.emit_eq_some.mp hemit
    have hbusy : ¬ s.client.AtRest := fun hrest => by
      simpa [hpacer, PacerState.Idle] using hrest.2
    exact ⟨hnow, fun _ => hs.work hbusy, fun _ => hs.work hbusy⟩
  | watch =>
    obtain ⟨client, hwatch, rfl⟩ := Option.map_eq_some_iff.mp h
    exact hs.watch hnow hwatch hfit
  | mock targets =>
    cases h
    exact ⟨hnow, fun hshown => Bool.noConfusion hshown.2, hs.work⟩

omit [KotlinFloat F] in
theorem created_guarding {now : ℤ} (hnow : 0 < now) : (created now : Overlay F).Guarding where
  clock := hnow
  shown := fun h => Bool.noConfusion h.2
  work := fun h => absurd ⟨rfl, trivial⟩ h

/-- In every run in which the watchdog sets the time to zero only when there is nothing left to
clear, or while a handler is about to write it, an overlay from the WebSocket stays armed. -/
theorem overlay_stays_armed {now : ℤ} (hnow : 0 < now)
    (h : Run (Guarded ResetFits Step) (created now) acts t) :
    Run (Into StaysArmed Step) (created now) acts t :=
  Run.meeting_of_guarded (created_guarding hnow)
    (fun _ _ _ hs hst hfit => ⟨hs.step hst hfit, (hs.step hst hfit).shown⟩) h

omit [KotlinFloat F] in
/-- What armed is for: a time that is too long ago makes the watchdog clear the overlay when it
wakes up. -/
theorem armed_overlay_is_cleared {client : DetectionClient F} {resume now : ℤ}
    (hwatch : client.watchdog = .sleeping resume) (hresume : resume ≤ now)
    (hlast : 0 < client.lastWsDetectionAt)
    (hstale : stalenessTimeoutMs < now - client.lastWsDetectionAt) :
    ∃ client', exec DetectionClient.watch client [now, now, now, now] = some client' ∧
      client'.detectedTargets = [] := by
  let checking : DetectionClient F :=
    { client with watchdog := .checking client.lastWsDetectionAt }
  let looking : DetectionClient F := { client with watchdog := .looking }
  have hwake : client.watch now = some checking := by
    simp [DetectionClient.watch, hwatch, hresume, checking]
  have hcheck : checking.watch now = some looking := by
    simp [DetectionClient.watch, hlast, hstale, checking, looking]
  have hlooks : exec DetectionClient.watch client [now, now, now, now] =
      exec DetectionClient.watch looking [now, now] := by
    rw [exec, hwake, Option.bind_some, exec, hcheck, Option.bind_some]
  rw [hlooks]
  cases hempty : client.detectedTargets with
  | nil => simp [exec, DetectionClient.watch, looking, hempty]
  | cons target targets => simp [exec, DetectionClient.watch, looking, hempty]

/-- A message at 1100 is shown, and the watchdog does not find anything to clear until 6000. -/
def shownSinceLong : List (DetectionAct ℚ) :=
  [⟨1100, .trySend ⟨[⟨"1", "person", 0.9, ⟨100, 100, 50, 120⟩, 0⟩], 0, 0⟩⟩, ⟨1100, .stamp⟩,
    ⟨1100, .receive⟩, ⟨1100, .track⟩, ⟨1100, .emit⟩] ++
  (List.range 10).flatMap fun k => [⟨1500 + 500 * k, .watch⟩, ⟨1500 + 500 * k, .watch⟩]

def shownAgain (now : ℤ) : List (DetectionAct ℚ) :=
  [⟨now, .trySend ⟨[⟨"1", "person", 0.9, ⟨300, 100, 50, 120⟩, 0⟩], 0, 1⟩⟩, ⟨now, .stamp⟩,
    ⟨now, .receive⟩, ⟨now, .track⟩, ⟨now, .emit⟩]

/-- The watchdog clears and goes to sleep before the second message. -/
def clearedBetween : List (DetectionAct ℚ) :=
  shownSinceLong ++ List.replicate 5 ⟨6500, .watch⟩ ++ shownAgain 6600

theorem overlay_stays_armed_cleared_between :
    ∃ t, Run (Into StaysArmed Step) (created 1000) clearedBetween t ∧ t.Shown ∧
      t.client.lastWsDetectionAt = 6600 := by
  have hfacts : (exec (fun s a => if decide (s.ResetFits a) then apply s a else none)
      (created 1000) clearedBetween).map
      (fun t => (decide t.Shown, t.client.lastWsDetectionAt)) = some (true, 6600) := by
    decide +kernel
  obtain ⟨t, hexec, ht⟩ := Option.map_eq_some_iff.mp hfacts
  simp only [Prod.mk.injEq, decide_eq_true_eq] at ht
  have hrun : Run (Guarded ResetFits Step) (created 1000) clearedBetween t :=
    (Run.of_exec_guarded hexec).mono fun _ _ _ h => ⟨of_decide_eq_true h.1, h.2⟩
  exact ⟨t, overlay_stays_armed (by decide) hrun, ht⟩

/-- The second message is shown before the watchdog's reset. -/
def resetLate : List (DetectionAct ℚ) :=
  shownSinceLong ++ List.replicate 4 ⟨6500, .watch⟩ ++ shownAgain 6500 ++ [⟨6500, .watch⟩]

theorem overlay_left_unarmed :
    ∃ t, Run Step (created 1000) resetLate t ∧ t.Shown ∧ t.client.lastWsDetectionAt = 0 ∧
      t.client.handing = 0 ∧ ¬ t.StaysArmed := by
  have hfacts : (exec apply (created 1000) resetLate).map
      (fun t => (decide t.Shown, t.client.lastWsDetectionAt, t.client.handing)) =
      some (true, 0, 0) := by decide +kernel
  obtain ⟨t, hexec, ht⟩ := Option.map_eq_some_iff.mp hfacts
  simp only [Prod.mk.injEq, decide_eq_true_eq] at ht
  obtain ⟨hshown, hlast, hhanding⟩ := ht
  refine ⟨t, Run.of_exec hexec, hshown, hlast, hhanding, fun harmed => ?_⟩
  rcases harmed hshown with hpos | hpos
  · omega
  · omega

end Overlay

end SnipeIt.Phone
