import SnipeIt.Phone.Pacer
import SnipeIt.Support.Run

/-! # Disconnecting while the pacer works (`RaspberryPiClient.kt`)

`disconnect` drains the queue and resets the tracker on another thread than the
pacer's. A batch that the pacer has taken and holds through its delay is in
neither of them.
-/

namespace SnipeIt.Phone
open Support

variable {F : Type*}

/-- Where the thread in `disconnect` stands. -/
inductive DisconnectState where
  | idle
  | draining
  | resettingTime
  | clearingTracks
  | resettingCounter
  | clearingTargets
  | returning
deriving DecidableEq

inductive SessionOp (F : Type*) where
  | trySend (targets : List (DetectedTarget F)) (timestampMs : ℤ)
  | stamp
  | pacer
  | watch
  | disconnect

/-- A step with its time. The pacer's is all that it does between two suspension points. -/
structure SessionAct (F : Type*) where
  now : ℤ
  op : SessionOp F

/-- The client with the messages that came and with what has become of them. -/
structure Session (F : Type*) where
  client : DetectionClient F
  clock : ℤ
  disconnect : DisconnectState
  /-- The number of messages so far. -/
  received : ℕ
  /-- The number of messages when `disconnect` was called last. -/
  called : ℕ
  /-- The same, from the return of `disconnect` until a message comes. -/
  since : Option ℕ
  /-- The messages that the detections of a tracked target came with. -/
  sources : String → List ℕ

namespace Session

def created (now : ℤ) : Session F where
  client := DetectionClient.created now
  clock := now
  disconnect := .idle
  received := 0
  called := 0
  since := none
  sources := fun _ => []

def disconnectStep (s : Session F) : Session F :=
  match s.disconnect with
  | .idle => { s with disconnect := .draining, called := s.received }
  | .draining =>
    if s.client.detectionQueue.isEmpty then { s with disconnect := .resettingTime }
    else { s with client := { s.client with detectionQueue := s.client.detectionQueue.tail } }
  | .resettingTime =>
    { s with client := { s.client with lastWsDetectionAt := 0 }, disconnect := .clearingTracks }
  | .clearingTracks =>
    { s with
      client := { s.client with tracker := { s.client.tracker with trackedTargets := [] } }
      disconnect := .resettingCounter }
  | .resettingCounter =>
    { s with
      client := { s.client with tracker := { s.client.tracker with nextVisualIdCounter := 1 } }
      disconnect := .clearingTargets }
  | .clearingTargets =>
    { s with client := { s.client with detectedTargets := [] }, disconnect := .returning }
  -- the pacer may hold a batch all the while
  | .returning => { s with disconnect := .idle, since := some s.called }

def trySend (s : Session F) (targets : List (DetectedTarget F)) (timestampMs : ℤ) : Session F :=
  { s with
    client := s.client.trySend ⟨targets, timestampMs, s.received⟩
    received := s.received + 1
    since := none }

/-- All detections that a tracked target has got are of messages from `k` on. -/
def From (s : Session F) (k : ℕ) (id : String) : Prop := ∀ m ∈ s.sources id, k ≤ m

instance (s : Session F) (k : ℕ) (id : String) : Decidable (s.From k id) :=
  inferInstanceAs (Decidable (∀ m ∈ s.sources id, k ≤ m))

/-- What the pacer puts into the tracker and on the screen after `disconnect` has returned, and
before a message comes, holds no detection from before the call. -/
def NothingOldPut (s : Session F) (a : SessionAct F) (t : Session F) : Prop :=
  match a.op with
  | .pacer => (s.client.emission a.now).isSome = true → ∀ k ∈ s.since,
      (∀ track ∈ t.client.tracker.trackedTargets, t.From k track.visualId) ∧
        ∀ target ∈ t.client.detectedTargets, t.From k target.id
  | _ => True

/-- The pacer holds no batch from before `k`, or an empty one. -/
def HoldsFrom (pacer : PacerState F) (k : ℕ) : Prop :=
  match pacer with
  | .holding latest _ => latest.targets.isEmpty = true ∨ k ≤ latest.message
  | _ => True

instance (pacer : PacerState F) (k : ℕ) : Decidable (HoldsFrom pacer k) :=
  match pacer with
  | .receiving => inferInstanceAs (Decidable True)
  | .holding _ _ => inferInstanceAs (Decidable (_ ∨ _))
  | .emitting _ => inferInstanceAs (Decidable True)

/-- `disconnect` returns when the pacer holds no detections from before the call, and has put none
into the tracker since that was cleared, unless it has nothing to do. -/
def ReturnFits (s : Session F) (a : SessionAct F) : Prop :=
  match a.op with
  | .disconnect => s.disconnect = .returning → HoldsFrom s.client.pacer s.called ∧
      (s.client.AtRest ∨ ∀ track ∈ s.client.tracker.trackedTargets, s.From s.called track.visualId)
  | _ => True

instance (s : Session F) (a : SessionAct F) : Decidable (s.ReturnFits a) :=
  match a with
  | ⟨_, .trySend _ _⟩ => inferInstanceAs (Decidable True)
  | ⟨_, .stamp⟩ => inferInstanceAs (Decidable True)
  | ⟨_, .pacer⟩ => inferInstanceAs (Decidable True)
  | ⟨_, .watch⟩ => inferInstanceAs (Decidable True)
  | ⟨_, .disconnect⟩ => inferInstanceAs (Decidable (_ → _))

variable [KotlinFloat F]

/-- Where the detections of the tracked targets come from after a batch. -/
def sourcesAfter (s : Session F) (now : ℤ) (batch : DetectionBatch F) (id : String) : List ℕ :=
  if id ∈ s.client.tracker.given now batch.targets then [batch.message]
  else if id ∈ s.client.tracker.assigned now batch.targets then s.sources id ++ [batch.message]
  else s.sources id

def afterPacer (s : Session F) (now : ℤ) (client : DetectionClient F) : Session F :=
  { s with
    client := client
    sources := match s.client.emission now with
      | none => s.sources
      | some batch => s.sourcesAfter now batch }

def perform (s : Session F) (now : ℤ) : SessionOp F → Option (Session F)
  | .trySend targets timestampMs => some (s.trySend targets timestampMs)
  | .stamp => (s.client.stamp now).map fun client => { s with client := client }
  | .pacer => (s.client.pacerTurn now).map (s.afterPacer now)
  | .watch => (s.client.watch now).map fun client => { s with client := client }
  | .disconnect => some s.disconnectStep

def apply (s : Session F) (a : SessionAct F) : Option (Session F) :=
  if s.clock ≤ a.now then (s.perform a.now a.op).map fun t => { t with clock := a.now } else none

def Step (s : Session F) (a : SessionAct F) (t : Session F) : Prop := s.apply a = some t

/-- What the pacer works on is not from before `k`. -/
structure Clear (s : Session F) (k : ℕ) : Prop where
  queue : ∀ batch ∈ s.client.detectionQueue, k ≤ batch.message
  pacer : HoldsFrom s.client.pacer k
  tracks : ¬ s.client.AtRest → ∀ track ∈ s.client.tracker.trackedTargets, s.From k track.visualId

structure Sorted (s : Session F) : Prop where
  called : s.called ≤ s.received
  drained : s.disconnect ≠ .idle → s.disconnect ≠ .draining →
    ∀ batch ∈ s.client.detectionQueue, s.called ≤ batch.message
  since : ∀ k ∈ s.since, s.Clear k

variable {s t : Session F} {a : SessionAct F} {acts : List (SessionAct F)} {now : ℤ} {k : ℕ}

/-- A batch that is not from before `k` brings nothing from before `k` into a tracker that has
nothing of it. -/
theorem from_sourcesAfter {batch : DetectionBatch F}
    (hbatch : batch.targets.isEmpty = true ∨ k ≤ batch.message)
    (htracks : ∀ track ∈ s.client.tracker.trackedTargets, s.From k track.visualId)
    {track : TrackedTarget F}
    (htrack : track ∈ (s.client.tracker.updated now batch.targets).trackedTargets) :
    ∀ m ∈ s.sourcesAfter now batch track.visualId, k ≤ m := by
  have hmessage : track.visualId ∈ s.client.tracker.assigned now batch.targets →
      k ≤ batch.message := by
    intro hassigned
    rcases hbatch with hempty | hle
    · rw [List.isEmpty_iff.mp hempty, Tracker.assigned_nil] at hassigned
      cases hassigned
    · exact hle
  -- a new id, an old one that was matched, and one that was not
  intro m hm
  unfold sourcesAfter at hm
  split_ifs at hm with hgiven hassigned
  · rw [List.mem_singleton.mp hm]
    exact hmessage (List.mem_append_right _ hgiven)
  · obtain ⟨old, hold, hid⟩ := (Tracker.id_of_mem_updated htrack).resolve_right hgiven
    rcases List.mem_append.mp hm with hm | hm
    · exact htracks old hold m (hid ▸ hm)
    · rw [List.mem_singleton.mp hm]
      exact hmessage hassigned
  · obtain ⟨old, hold, hid⟩ := (Tracker.id_of_mem_updated htrack).resolve_right hgiven
    exact htracks old hold m (hid ▸ hm)

omit [KotlinFloat F] in
theorem Clear.of_emits (hs : s.Clear k) {latest : DetectionBatch F}
    {queue : List (DetectionBatch F)} (h : s.client.Emits latest queue) :
    (latest.targets.isEmpty = true ∨ k ≤ latest.message) ∧ ¬ s.client.AtRest ∧
      ∀ batch ∈ queue, batch ∈ s.client.detectionQueue := by
  cases h with
  | fromQueue hpacer hlatest =>
    exact ⟨Or.inr (hs.queue latest hlatest), DetectionClient.not_atRest_of_mem hlatest,
      fun batch hbatch => by cases hbatch⟩
  | held hpacer =>
    have hholds : HoldsFrom s.client.pacer k := hs.pacer
    rw [hpacer] at hholds
    refine ⟨hholds, fun hrest => ?_, fun batch hbatch => hbatch⟩
    simpa [hpacer, PacerState.Idle] using hrest.2

/-- The pacer's turn brings nothing old where there is nothing old to work on. -/
theorem Clear.pacer_step (hs : s.Clear k) {client : DetectionClient F}
    (hdoes : s.client.PacerDoes now client) :
    (s.afterPacer now client).Clear k ∧ ((s.client.emission now).isSome = true →
      (∀ track ∈ client.tracker.trackedTargets,
        (s.afterPacer now client).From k track.visualId) ∧
      ∀ target ∈ client.detectedTargets, (s.afterPacer now client).From k target.id) := by
  cases hdoes with
  | @holds latest hnone hpacer hlatest =>
    have hbusy := DetectionClient.not_atRest_of_mem hlatest
    have hsources : ∀ client, (s.afterPacer now client).sources = s.sources := fun client => by
      simp [afterPacer, hnone]
    refine ⟨⟨fun batch hbatch => ?_, Or.inr (hs.queue latest hlatest), fun _ => ?_⟩, fun h => ?_⟩
    · cases hbatch
    · unfold From
      rw [hsources]
      exact hs.tracks hbusy
    · simp [hnone] at h
  | @emits latest queue hsome hemits =>
    obtain ⟨hlatest, hbusy, hqueue⟩ := hs.of_emits hemits
    have hsources : ∀ client, (s.afterPacer now client).sources = s.sourcesAfter now latest :=
      fun client => by simp [afterPacer, hsome]
    have htracks : ∀ client, ∀ track ∈
        (s.client.tracker.matchAndSmooth now latest.targets).1.trackedTargets,
        (s.afterPacer now client).From k track.visualId := by
      intro client track htrack
      unfold From
      rw [hsources]
      exact from_sourcesAfter hlatest (hs.tracks hbusy) (List.mem_of_mem_filter htrack)
    refine ⟨⟨fun batch hbatch => hs.queue batch (hqueue batch hbatch), trivial, fun _ => htracks _⟩,
      fun _ => ⟨htracks _, fun target htarget => ?_⟩⟩
    obtain ⟨track, htrack, rfl⟩ := List.mem_map.mp htarget
    exact htracks _ track htrack

omit [KotlinFloat F] in
/-- What `Clear` is about has stayed the same, or the tracker has lost its targets. -/
theorem Clear.keep (hs : s.Clear k) (hqueue : t.client.detectionQueue = s.client.detectionQueue)
    (hpacer : t.client.pacer = s.client.pacer)
    (htracks : t.client.tracker.trackedTargets ⊆ s.client.tracker.trackedTargets)
    (hsources : t.sources = s.sources) : t.Clear k where
  queue := hqueue ▸ hs.queue
  pacer := hpacer ▸ hs.pacer
  tracks := by
    rw [DetectionClient.AtRest, hqueue, hpacer]
    intro hbusy track htrack
    rw [From, hsources]
    exact hs.tracks hbusy track (htracks htrack)

omit [KotlinFloat F] in
theorem Sorted.disconnectStep (hs : s.Sorted) (hfit : s.ReturnFits ⟨now, .disconnect⟩) :
    s.disconnectStep.Sorted := by
  have hsame := List.Subset.refl s.client.tracker.trackedTargets
  unfold Session.disconnectStep
  cases hstate : s.disconnect with
  | idle =>
    exact ⟨Nat.le_refl _, fun _ hnot => absurd rfl hnot,
      fun k hk => (hs.since k hk).keep rfl rfl hsame rfl⟩
  | draining =>
    dsimp only
    split_ifs with hempty
    · refine ⟨hs.called, fun _ _ batch hbatch => ?_,
        fun k hk => (hs.since k hk).keep rfl rfl hsame rfl⟩
      rw [List.isEmpty_iff.mp hempty] at hbatch
      cases hbatch
    · refine ⟨hs.called, fun _ hnot => absurd rfl hnot, fun k hk => ⟨fun batch hbatch => ?_,
        (hs.since k hk).pacer, fun _ => (hs.since k hk).tracks fun hrest => hempty hrest.1⟩⟩
      exact (hs.since k hk).queue batch (List.mem_of_mem_tail hbatch)
  | resettingTime =>
    exact ⟨hs.called, fun _ _ => hs.drained (by simp [hstate]) (by simp [hstate]),
      fun k hk => (hs.since k hk).keep rfl rfl hsame rfl⟩
  | clearingTracks =>
    exact ⟨hs.called, fun _ _ => hs.drained (by simp [hstate]) (by simp [hstate]),
      fun k hk => (hs.since k hk).keep rfl rfl (List.nil_subset _) rfl⟩
  | resettingCounter =>
    exact ⟨hs.called, fun _ _ => hs.drained (by simp [hstate]) (by simp [hstate]),
      fun k hk => (hs.since k hk).keep rfl rfl hsame rfl⟩
  | clearingTargets =>
    exact ⟨hs.called, fun _ _ => hs.drained (by simp [hstate]) (by simp [hstate]),
      fun k hk => (hs.since k hk).keep rfl rfl hsame rfl⟩
  | returning =>
    obtain ⟨hpacer, htracks⟩ := hfit hstate
    refine ⟨hs.called, fun hnot => absurd rfl hnot, fun k hk => ?_⟩
    cases hk
    exact ⟨hs.drained (by simp [hstate]) (by simp [hstate]), hpacer, htracks.resolve_left⟩

theorem Sorted.perform (hs : s.Sorted) {op : SessionOp F} (h : s.perform now op = some t)
    (hfit : s.ReturnFits ⟨now, op⟩) : t.Sorted ∧ NothingOldPut s ⟨now, op⟩ t := by
  cases op with
  | trySend targets timestampMs =>
    cases h
    refine ⟨⟨Nat.le_succ_of_le hs.called, fun hidle hdraining batch hbatch => ?_,
      fun k hk => by cases hk⟩, trivial⟩
    rcases List.mem_append.mp hbatch with hold | hnew
    · exact hs.drained hidle hdraining batch hold
    · rw [List.mem_singleton.mp hnew]
      exact hs.called
  | stamp =>
    obtain ⟨client, hstamp, rfl⟩ := Option.map_eq_some_iff.mp h
    obtain ⟨-, rfl⟩ := DetectionClient.stamp_eq_some.mp hstamp
    exact ⟨⟨hs.called, hs.drained,
      fun k hk => (hs.since k hk).keep rfl rfl (List.Subset.refl _) rfl⟩, trivial⟩
  | pacer =>
    obtain ⟨client, hturn, rfl⟩ := Option.map_eq_some_iff.mp h
    have hdoes := DetectionClient.pacerTurn_does hturn
    refine ⟨⟨hs.called, fun hidle hdraining batch hbatch => ?_, fun k hk =>
      ((hs.since k hk).pacer_step hdoes).1⟩, fun hemits k hk =>
      ((hs.since k hk).pacer_step hdoes).2 hemits⟩
    exact hs.drained hidle hdraining batch (hdoes.queue_subset hbatch)
  | watch =>
    obtain ⟨client, hwatch, rfl⟩ := Option.map_eq_some_iff.mp h
    have hkept := DetectionClient.watch_watched hwatch
    refine ⟨⟨hs.called, fun hidle hdraining => ?_, fun k hk => ?_⟩, trivial⟩
    · dsimp only
      rw [hkept.detectionQueue]
      exact hs.drained hidle hdraining
    · exact (hs.since k hk).keep hkept.detectionQueue hkept.pacer
        (hkept.tracker ▸ List.Subset.refl _) rfl
  | disconnect =>
    cases h
    exact ⟨hs.disconnectStep hfit, trivial⟩

theorem Sorted.step (hs : s.Sorted) (h : Step s a t) (hfit : s.ReturnFits a) :
    t.Sorted ∧ NothingOldPut s a t := by
  unfold Step apply at h
  split_ifs at h
  obtain ⟨u, hperform, rfl⟩ := Option.map_eq_some_iff.mp h
  obtain ⟨hu, hput⟩ := hs.perform hperform hfit
  exact ⟨⟨hu.called, hu.drained,
    fun k hk => (hu.since k hk).keep rfl rfl (List.Subset.refl _) rfl⟩, hput⟩

omit [KotlinFloat F] in
theorem created_sorted (now : ℤ) : (created now : Session F).Sorted where
  called := Nat.le_refl 0
  drained := fun h => absurd rfl h
  since := fun k hk => by cases hk

/-- In every run in which `disconnect` returns only when the pacer has nothing from before the
call, nothing from before the call is put into the tracker or on the screen afterwards. -/
theorem nothing_old_put {now : ℤ} (h : Run (Guarded ReturnFits Step) (created now) acts t) :
    Run (Meeting NothingOldPut Step) (created now) acts t :=
  Run.meeting_of_guarded (created_sorted now) (fun _ _ _ hs hst hfit => hs.step hst hfit) h

/-- A message at the given time, of somebody at one place. -/
def arrives (now : ℤ) : List (SessionAct ℚ) :=
  [⟨now, .trySend [⟨"1", "person", 0.9, ⟨100, 100, 50, 120⟩, 0⟩] 0⟩, ⟨now, .stamp⟩]

/-- A message that is drained, and one that comes after that and is put on the screen when
`disconnect` has returned. -/
def drainedInTime : List (SessionAct ℚ) :=
  arrives 1100 ++ [⟨1100, .pacer⟩] ++ arrives 1120 ++ List.replicate 3 ⟨1125, .disconnect⟩ ++
    arrives 1130 ++ [⟨1130, .pacer⟩] ++ List.replicate 5 ⟨1140, .disconnect⟩ ++ [⟨1200, .pacer⟩]

theorem nothing_old_put_drained_in_time :
    ∃ t, Run (Meeting NothingOldPut Step) (created 1000) drainedInTime t ∧ t.since = some 2 ∧
      t.client.detectedTargets.map (·.id) = ["T1"] ∧ t.sources "T1" = [2] := by
  have hfacts : (exec (fun s a => if decide (s.ReturnFits a) then apply s a else none)
      (created 1000) drainedInTime).map
      (fun t => (t.since, t.client.detectedTargets.map (·.id), t.sources "T1")) =
      some (some 2, ["T1"], [2]) := by decide +kernel
  obtain ⟨t, hexec, ht⟩ := Option.map_eq_some_iff.mp hfacts
  simp only [Prod.mk.injEq] at ht
  have hrun : Run (Guarded ReturnFits Step) (created 1000) drainedInTime t :=
    (Run.of_exec_guarded hexec).mono fun _ _ _ h => ⟨of_decide_eq_true h.1, h.2⟩
  exact ⟨t, nothing_old_put hrun, ht⟩

/-- The second message is held through the pacer's delay while `disconnect` runs. -/
def heldThroughDisconnect : List (SessionAct ℚ) :=
  arrives 1100 ++ [⟨1100, .pacer⟩] ++ arrives 1120 ++ [⟨1120, .pacer⟩] ++
    List.replicate 7 ⟨1150, .disconnect⟩

theorem held_batch_put_after_disconnect :
    ∃ s t, Run Step (created 1000) heldThroughDisconnect s ∧ Step s ⟨1200, .pacer⟩ t ∧
      s.since = some 2 ∧ t.client.detectedTargets.map (·.id) = ["T1"] ∧ t.sources "T1" = [1] ∧
      ¬ NothingOldPut s ⟨1200, .pacer⟩ t := by
  have hfacts : (exec apply (created 1000) heldThroughDisconnect).map
      (fun s => (s.since, (s.client.emission 1200).isSome,
        (apply s ⟨1200, .pacer⟩).map
          fun t => (t.client.detectedTargets.map (·.id), t.sources "T1"))) =
      some (some 2, true, some (["T1"], [1])) := by decide +kernel
  obtain ⟨s, hexec, hs⟩ := Option.map_eq_some_iff.mp hfacts
  simp only [Prod.mk.injEq] at hs
  obtain ⟨hsince, hemits, hnext⟩ := hs
  obtain ⟨t, hstep, ht⟩ := Option.map_eq_some_iff.mp hnext
  simp only [Prod.mk.injEq] at ht
  obtain ⟨hids, hsources⟩ := ht
  refine ⟨s, t, Run.of_exec hexec, hstep, hsince, hids, hsources, fun hput => ?_⟩
  obtain ⟨target, htarget, hid⟩ : ∃ target ∈ t.client.detectedTargets, target.id = "T1" := by
    have hmem : "T1" ∈ t.client.detectedTargets.map (·.id) := by simp [hids]
    exact List.mem_map.mp hmem
  have hfrom : t.From 2 target.id := (hput hemits 2 hsince).2 target htarget
  rw [hid, From, hsources] at hfrom
  exact absurd (hfrom 1 (List.mem_singleton_self 1)) (by decide)

end Session

end SnipeIt.Phone
