import SnipeIt.Phone.Tracker

/-! # Detections on their way to the screen (`RaspberryPiClient.kt`)

The WebSocket handler queues batches of detections, the pacer drains the queue
to the newest one and runs it through the tracker, and the staleness watchdog
clears the overlay when no message has come for a while. Every read and write
of the state that they share is a step here, and every step has its time.
-/

namespace SnipeIt.Phone

def pacerMinOutputIntervalMs : ℤ := 100

def stalenessCheckIntervalMs : ℤ := 500

def stalenessTimeoutMs : ℤ := 5000

/-- What `handleWebSocketMessage` hands to the pacer. The messages are numbered here to say which
one came when; the source has no such numbers. -/
structure DetectionBatch (F : Type*) where
  targets : List (DetectedTarget F)
  timestampMs : ℤ
  message : ℕ

inductive PacerState (F : Type*) where
  /-- Before or in `receive`. -/
  | receiving
  /-- The queue is drained. The pacer goes on at `resume` at the earliest. -/
  | holding (latest : DetectionBatch F) (resume : ℤ)
  /-- The tracker has run. -/
  | emitting (tracked : List (DetectedTarget F))

def PacerState.Idle {F : Type*} : PacerState F → Prop
  | .receiving => True
  | _ => False

instance {F : Type*} (pacer : PacerState F) : Decidable pacer.Idle :=
  match pacer with
  | .receiving => inferInstanceAs (Decidable True)
  | .holding _ _ => inferInstanceAs (Decidable False)
  | .emitting _ => inferInstanceAs (Decidable False)

/-- Where the coroutine of `startStalenessChecker` stands. -/
inductive WatchdogState where
  | sleeping (resume : ℤ)
  | checking (last : ℤ)
  | looking
  | clearing
  | resetting
deriving DecidableEq

/-- The part of the client that is about detections. -/
structure DetectionClient (F : Type*) where
  detectionQueue : List (DetectionBatch F)
  lastWsDetectionAt : ℤ
  detectedTargets : List (DetectedTarget F)
  tracker : Tracker F
  lastEmitAt : ℤ
  pacer : PacerState F
  watchdog : WatchdogState
  /-- The handlers between `trySend` and the write of the time. -/
  handing : ℕ

namespace DetectionClient

variable {F : Type*}

/-- The pacer has nothing to do and nothing is queued for it. -/
def AtRest (s : DetectionClient F) : Prop :=
  s.detectionQueue.isEmpty = true ∧ s.pacer.Idle

instance (s : DetectionClient F) : Decidable s.AtRest := inferInstanceAs (Decidable (_ ∧ _))

theorem not_atRest_of_mem {s : DetectionClient F} {batch : DetectionBatch F}
    (h : batch ∈ s.detectionQueue) : ¬ s.AtRest := by
  rintro ⟨hempty, -⟩
  rw [List.isEmpty_iff.mp hempty] at h
  cases h

def created (now : ℤ) : DetectionClient F where
  detectionQueue := []
  lastWsDetectionAt := 0
  detectedTargets := []
  tracker := Tracker.init
  lastEmitAt := 0
  pacer := .receiving
  watchdog := .sleeping (now + stalenessCheckIntervalMs)
  handing := 0

/-- A handler of a `target_detection` message queues its batch. -/
def trySend (s : DetectionClient F) (batch : DetectionBatch F) : DetectionClient F :=
  { s with detectionQueue := s.detectionQueue ++ [batch], handing := s.handing + 1 }

/-- The handler writes the time of the message. -/
def stamp (s : DetectionClient F) (now : ℤ) : Option (DetectionClient F) :=
  if s.handing = 0 then none
  else some { s with lastWsDetectionAt := now, handing := s.handing - 1 }

/-- When the pacer may emit what it has received by now. -/
def resumeAt (s : DetectionClient F) (now : ℤ) : ℤ :=
  let sinceLast := now - s.lastEmitAt
  if sinceLast < pacerMinOutputIntervalMs then now + (pacerMinOutputIntervalMs - sinceLast)
  else now

/-- `receive`, the loop that keeps the newest batch, and the choice of the delay. -/
def receive (s : DetectionClient F) (now : ℤ) : Option (DetectionClient F) :=
  match s.pacer, s.detectionQueue.getLast? with
  | .receiving, some latest =>
    some { s with detectionQueue := [], pacer := .holding latest (s.resumeAt now) }
  | _, _ => none

def watch (s : DetectionClient F) (now : ℤ) : Option (DetectionClient F) :=
  match s.watchdog with
  | .sleeping resume =>
    if resume ≤ now then some { s with watchdog := .checking s.lastWsDetectionAt } else none
  | .checking last =>
    if 0 < last ∧ stalenessTimeoutMs < now - last then some { s with watchdog := .looking }
    else some { s with watchdog := .sleeping (now + stalenessCheckIntervalMs) }
  | .looking =>
    if s.detectedTargets.isEmpty then some { s with watchdog := .resetting }
    else some { s with watchdog := .clearing }
  | .clearing => some { s with detectedTargets := [], watchdog := .resetting }
  | .resetting =>
    -- whatever the time is by now
    some
      { s with
        lastWsDetectionAt := 0
        watchdog := .sleeping (now + stalenessCheckIntervalMs) }

/-- The write of `detectedTargets`, and of the time of it. -/
def emit (s : DetectionClient F) (now : ℤ) : Option (DetectionClient F) :=
  match s.pacer with
  | .emitting tracked =>
    some { s with detectedTargets := tracked, lastEmitAt := now, pacer := .receiving }
  | _ => none

theorem stamp_eq_some {s t : DetectionClient F} {now : ℤ} :
    s.stamp now = some t ↔
      0 < s.handing ∧ t = { s with lastWsDetectionAt := now, handing := s.handing - 1 } := by
  unfold stamp
  by_cases hnone : s.handing = 0
  · simp [hnone]
  · simp [hnone, Nat.pos_of_ne_zero hnone, eq_comm]

theorem receive_eq_some {s t : DetectionClient F} {now : ℤ} :
    s.receive now = some t ↔
      s.pacer = .receiving ∧ ∃ latest, s.detectionQueue.getLast? = some latest ∧
        t = { s with detectionQueue := [], pacer := .holding latest (s.resumeAt now) } := by
  unfold receive
  cases s.pacer with
  | receiving => cases s.detectionQueue.getLast? <;> simp [eq_comm]
  | holding latest resume => simp
  | emitting tracked => simp

theorem emit_eq_some {s t : DetectionClient F} {now : ℤ} :
    s.emit now = some t ↔ ∃ tracked, s.pacer = .emitting tracked ∧
      t = { s with detectedTargets := tracked, lastEmitAt := now, pacer := .receiving } := by
  unfold emit
  cases s.pacer <;> simp [eq_comm]

/-- The watchdog only takes away from the overlay, and what it does to the time is the reset. -/
structure Watched (s t : DetectionClient F) : Prop where
  detectionQueue : t.detectionQueue = s.detectionQueue
  pacer : t.pacer = s.pacer
  tracker : t.tracker = s.tracker
  handing : t.handing = s.handing
  detectedTargets : t.detectedTargets = s.detectedTargets ∨ t.detectedTargets = []
  lastWsDetectionAt : t.lastWsDetectionAt = s.lastWsDetectionAt ∨ s.watchdog = .resetting

theorem watch_watched {s t : DetectionClient F} {now : ℤ} (h : s.watch now = some t) :
    Watched s t := by
  unfold watch at h
  cases hwatch : s.watchdog with
  | sleeping resume =>
    simp only [hwatch] at h
    split_ifs at h
    cases h
    exact ⟨rfl, rfl, rfl, rfl, Or.inl rfl, Or.inl rfl⟩
  | checking last =>
    simp only [hwatch] at h
    split_ifs at h <;>
    · cases h
      exact ⟨rfl, rfl, rfl, rfl, Or.inl rfl, Or.inl rfl⟩
  | looking =>
    simp only [hwatch] at h
    split_ifs at h <;>
    · cases h
      exact ⟨rfl, rfl, rfl, rfl, Or.inl rfl, Or.inl rfl⟩
  | clearing =>
    simp only [hwatch] at h
    cases h
    exact ⟨rfl, rfl, rfl, rfl, Or.inr rfl, Or.inl rfl⟩
  | resetting =>
    simp only [hwatch] at h
    cases h
    exact ⟨rfl, rfl, rfl, rfl, Or.inl rfl, Or.inr hwatch⟩

variable [KotlinFloat F]

def track (s : DetectionClient F) (now : ℤ) : Option (DetectionClient F) :=
  match s.pacer with
  | .holding latest resume =>
    if resume ≤ now then
      some
        { s with
          tracker := (s.tracker.matchAndSmooth now latest.targets).1
          pacer := .emitting (s.tracker.matchAndSmooth now latest.targets).2 }
    else none
  | _ => none

theorem track_eq_some {s t : DetectionClient F} {now : ℤ} :
    s.track now = some t ↔ ∃ latest resume, s.pacer = .holding latest resume ∧ resume ≤ now ∧
      t =
        { s with
          tracker := (s.tracker.matchAndSmooth now latest.targets).1
          pacer := .emitting (s.tracker.matchAndSmooth now latest.targets).2 } := by
  unfold track
  cases s.pacer with
  | receiving => simp
  | emitting tracked => simp
  | holding latest resume => by_cases hle : resume ≤ now <;> simp [hle, eq_comm]

/-- The call of `matchAndSmooth` and the write of what it returns. -/
def finish (s : DetectionClient F) (now : ℤ) : Option (DetectionClient F) :=
  (s.track now).bind fun t => t.emit now

/-- What the pacer does between two suspension points. -/
def pacerTurn (s : DetectionClient F) (now : ℤ) : Option (DetectionClient F) :=
  match s.pacer with
  | .receiving => (s.receive now).map fun t => (t.finish now).getD t
  | _ => s.finish now

/-- The batch that the pacer emits if it goes on now. -/
def emission (s : DetectionClient F) (now : ℤ) : Option (DetectionBatch F) :=
  match s.pacer with
  | .receiving => if s.resumeAt now ≤ now then s.detectionQueue.getLast? else none
  | .holding latest resume => if resume ≤ now then some latest else none
  | .emitting _ => none

/-- What a batch that is emitted comes from, and what stays queued. -/
inductive Emits (s : DetectionClient F) : DetectionBatch F → List (DetectionBatch F) → Prop where
  | fromQueue {latest : DetectionBatch F} (hpacer : s.pacer = .receiving)
      (hlatest : latest ∈ s.detectionQueue) : Emits s latest []
  | held {latest : DetectionBatch F} {resume : ℤ} (hpacer : s.pacer = .holding latest resume) :
      Emits s latest s.detectionQueue

/-- What the pacer does between two suspension points, by cases. -/
inductive PacerDoes (s : DetectionClient F) (now : ℤ) : DetectionClient F → Prop where
  | holds {latest : DetectionBatch F} (hnone : s.emission now = none)
      (hpacer : s.pacer = .receiving) (hlatest : latest ∈ s.detectionQueue) :
      PacerDoes s now
        { s with detectionQueue := [], pacer := .holding latest (s.resumeAt now) }
  | emits {latest : DetectionBatch F} {queue : List (DetectionBatch F)}
      (hsome : s.emission now = some latest) (hemits : Emits s latest queue) :
      PacerDoes s now
        { s with
          detectionQueue := queue
          tracker := (s.tracker.matchAndSmooth now latest.targets).1
          detectedTargets := (s.tracker.matchAndSmooth now latest.targets).2
          lastEmitAt := now
          pacer := .receiving }

theorem PacerDoes.queue_subset {s t : DetectionClient F} {now : ℤ} (h : PacerDoes s now t) :
    t.detectionQueue ⊆ s.detectionQueue := by
  cases h with
  | holds => exact List.nil_subset _
  | emits _ hemits =>
    cases hemits with
    | fromQueue => exact List.nil_subset _
    | held => exact List.Subset.refl _

theorem finish_eq_some {s t : DetectionClient F} {now : ℤ} :
    s.finish now = some t ↔ ∃ latest resume, s.pacer = .holding latest resume ∧ resume ≤ now ∧
      t =
        { s with
          tracker := (s.tracker.matchAndSmooth now latest.targets).1
          detectedTargets := (s.tracker.matchAndSmooth now latest.targets).2
          lastEmitAt := now
          pacer := .receiving } := by
  constructor
  · intro h
    obtain ⟨u, htrack, hemit⟩ := Option.bind_eq_some_iff.mp h
    obtain ⟨latest, resume, hpacer, hle, rfl⟩ := track_eq_some.mp htrack
    obtain ⟨tracked, htracked, rfl⟩ := emit_eq_some.mp hemit
    cases htracked
    exact ⟨latest, resume, hpacer, hle, rfl⟩
  · rintro ⟨latest, resume, hpacer, hle, rfl⟩
    have htrack := track_eq_some.mpr ⟨latest, resume, hpacer, hle, rfl⟩
    exact Option.bind_eq_some_iff.mpr ⟨_, htrack, emit_eq_some.mpr ⟨_, rfl, rfl⟩⟩

theorem pacerTurn_does {s t : DetectionClient F} {now : ℤ} (h : s.pacerTurn now = some t) :
    PacerDoes s now t := by
  cases hpacer : s.pacer with
  | receiving =>
    simp only [pacerTurn, hpacer] at h
    obtain ⟨u, hreceive, rfl⟩ := Option.map_eq_some_iff.mp h
    obtain ⟨-, latest, hlatest, rfl⟩ := receive_eq_some.mp hreceive
    have hmem : latest ∈ s.detectionQueue := List.mem_of_getLast? hlatest
    by_cases hle : s.resumeAt now ≤ now
    · rw [finish_eq_some.mpr ⟨latest, _, rfl, hle, rfl⟩]
      have hsome : s.emission now = some latest := by simp [emission, hpacer, hle, hlatest]
      exact .emits hsome (.fromQueue hpacer hmem)
    · have hnone : s.emission now = none := by simp [emission, hpacer, hle]
      have hwait :
          finish { s with detectionQueue := [], pacer := .holding latest (s.resumeAt now) } now =
            none := by
        simp [finish, track, hle]
      rw [hwait]
      exact .holds hnone hpacer hmem
  | holding latest resume =>
    simp only [pacerTurn, hpacer] at h
    obtain ⟨latest', resume', heq, hle, rfl⟩ := finish_eq_some.mp h
    rw [hpacer] at heq
    cases heq
    exact .emits (by simp [emission, hpacer, hle]) (.held hpacer)
  | emitting tracked =>
    simp only [pacerTurn, hpacer] at h
    obtain ⟨latest, resume, heq, -⟩ := finish_eq_some.mp h
    rw [hpacer] at heq
    cases heq

end DetectionClient

end SnipeIt.Phone
