import SnipeIt.Phone.Disconnect
import SnipeIt.Phone.Smoothing

/-! # Targets in the video

The pacer, the tracker and the smoothing only show boxes that they were given, or
averages of them. What holds of every box that comes in, and of averages, holds of
every box that is shown, whoever disconnects in between.
-/

namespace SnipeIt.Phone
open Support

variable {F : Type*} [KotlinFloat F]

/-! ## What every target has -/

/-- A property of a box, a type and a confidence. -/
abbrev TargetProperty (F : Type*) := BoundingBox → String → F → Prop

/-- The property is not lost when a target is smoothed. -/
def TargetProperty.Smooth (P : TargetProperty F) : Prop :=
  ∀ old new type type' confidence confidence', P old type confidence →
    P new type' confidence' → P (smoothBbox F old new) type'
      (emaAlpha * confidence' + (1.0 - emaAlpha) * confidence)

def DetectedTarget.Has (P : TargetProperty F) (t : DetectedTarget F) : Prop :=
  P t.bbox t.targetType t.confidence

def TrackedTarget.Has (P : TargetProperty F) (t : TrackedTarget F) : Prop :=
  P t.bbox t.targetType t.confidence

namespace Tracker

variable {P : TargetProperty F} {s : Tracker F} {now : ℤ} {incoming : List (DetectedTarget F)}

def Has (P : TargetProperty F) (s : Tracker F) : Prop := ∀ track ∈ s.trackedTargets, track.Has P

theorem claim_has (hP : P.Smooth) (hincoming : ∀ det ∈ incoming, det.Has P) {m : Matching F}
    (hm : ∀ track ∈ m.trackedTargets, track.Has P) (c : Candidate F) :
    ∀ track ∈ (claim now incoming m c).trackedTargets, track.Has P := by
  rw [claim]
  split_ifs
  · exact hm
  · split
    · next _ det _ hdet =>
      intro track htrack
      obtain ⟨old, hold, rfl⟩ := List.mem_map.mp htrack
      split_ifs
      · exact hP _ _ _ _ _ _ (hm old hold) (hincoming det (List.mem_of_getElem? hdet))
      · exact hm old hold
    · exact hm

omit [KotlinFloat F] in
theorem put_has {tracks : List (TrackedTarget F)} {new : TrackedTarget F}
    (htracks : ∀ track ∈ tracks, track.Has P) (hnew : new.Has P) :
    ∀ track ∈ put tracks new, track.Has P := by
  rw [put]
  split_ifs
  · intro track htrack
    obtain ⟨old, hold, rfl⟩ := List.mem_map.mp htrack
    split_ifs
    · exact hnew
    · exact htracks old hold
  · intro track htrack
    rcases List.mem_append.mp htrack with hold | hlast
    · exact htracks track hold
    · rw [List.mem_singleton.mp hlast]
      exact hnew

theorem updated_has (hP : P.Smooth) (hs : s.Has P) (hincoming : ∀ det ∈ incoming, det.Has P) :
    (s.updated now incoming).Has P := by
  have hmatching : ∀ track ∈ (s.matching now incoming).trackedTargets, track.Has P :=
    List.foldlRecOn (motive := fun m : Matching F => ∀ track ∈ m.trackedTargets, track.Has P) _ _
      hs fun m hm c _ => claim_has hP hincoming hm c
  refine List.foldlRecOn (motive := fun t : Tracker F => t.Has P) _ _ hmatching
    fun t ht det hdet => ?_
  rw [addUnmatched]
  split_ifs
  · exact ht
  · exact put_has ht (hincoming det.1 (List.fst_mem_of_mem_zipIdx hdet))

variable (now) in
/-- A call of `matchAndSmooth` keeps the property, and returns targets that have it. -/
theorem matchAndSmooth_has (hP : P.Smooth) (hs : s.Has P)
    (hincoming : ∀ det ∈ incoming, det.Has P) :
    (s.matchAndSmooth now incoming).1.Has P ∧
      ∀ det ∈ (s.matchAndSmooth now incoming).2, det.Has P := by
  have hkept : ∀ track ∈ (s.updated now incoming).trackedTargets.filter
      (fun track => ¬ track.TimedOut now), track.Has P :=
    fun track htrack => updated_has hP hs hincoming track (List.mem_of_mem_filter htrack)
  refine ⟨hkept, fun det hdet => ?_⟩
  obtain ⟨track, htrack, rfl⟩ := List.mem_map.mp hdet
  exact hkept track htrack

end Tracker

/-! ## A session -/

/-- What the pacer holds or is about to show. -/
def PacerState.Has (P : TargetProperty F) : PacerState F → Prop
  | .receiving => True
  | .holding latest _ => ∀ det ∈ latest.targets, det.Has P
  | .emitting tracked => ∀ det ∈ tracked, det.Has P

/-- Every target in the client has the property. -/
structure DetectionClient.Has (P : TargetProperty F) (s : DetectionClient F) : Prop where
  queue : ∀ batch ∈ s.detectionQueue, ∀ det ∈ batch.targets, det.Has P
  pacer : s.pacer.Has P
  tracker : s.tracker.Has P
  shown : ∀ det ∈ s.detectedTargets, det.Has P

/-- The targets of a message have the property. -/
def SessionAct.Has (P : TargetProperty F) (a : SessionAct F) : Prop :=
  ∀ targets timestampMs, a.op = .trySend targets timestampMs → ∀ det ∈ targets, det.Has P

namespace Session

variable {P : TargetProperty F} {s t : Session F} {now : ℤ} {acts : List (SessionAct F)}

theorem pacer_has (hP : P.Smooth) {client : DetectionClient F} (hs : s.client.Has P)
    (h : s.client.pacerTurn now = some client) : client.Has P := by
  cases DetectionClient.pacerTurn_does h with
  | @holds latest _ _ hlatest =>
    exact ⟨nofun, hs.queue latest hlatest, hs.tracker, hs.shown⟩
  | @emits latest queue hsome hemits =>
    have hlatest : ∀ det ∈ latest.targets, det.Has P := by
      cases hemits with
      | fromQueue _ hmem => exact hs.queue latest hmem
      | held hpacer =>
        have hheld := hs.pacer
        rw [hpacer] at hheld
        exact hheld
    have hqueue : ∀ batch ∈ queue, ∀ det ∈ batch.targets, det.Has P := by
      cases hemits with
      | fromQueue => exact nofun
      | held => exact hs.queue
    obtain ⟨htracker, hshown⟩ := Tracker.matchAndSmooth_has now hP hs.tracker hlatest
    exact ⟨hqueue, trivial, htracker, hshown⟩

omit [KotlinFloat F] in
theorem disconnectStep_has (hs : s.client.Has P) : s.disconnectStep.client.Has P := by
  unfold disconnectStep
  cases s.disconnect with
  | idle => exact hs
  | draining =>
    dsimp only
    split_ifs
    · exact hs
    · exact ⟨fun batch hbatch => hs.queue batch (List.mem_of_mem_tail hbatch), hs.pacer, hs.tracker,
        hs.shown⟩
  | resettingTime => exact ⟨hs.queue, hs.pacer, hs.tracker, hs.shown⟩
  | clearingTracks => exact ⟨hs.queue, hs.pacer, nofun, hs.shown⟩
  | resettingCounter => exact ⟨hs.queue, hs.pacer, hs.tracker, hs.shown⟩
  | clearingTargets => exact ⟨hs.queue, hs.pacer, hs.tracker, nofun⟩
  | returning => exact hs

theorem step_has (hP : P.Smooth) (hs : s.client.Has P) {a : SessionAct F} (ha : a.Has P)
    (h : Step s a t) : t.client.Has P := by
  unfold Step apply at h
  split_ifs at h
  obtain ⟨u, hperform, rfl⟩ := Option.map_eq_some_iff.mp h
  obtain ⟨now, op⟩ := a
  cases op with
  | trySend targets timestampMs =>
    cases hperform
    refine ⟨fun batch hbatch => ?_, hs.pacer, hs.tracker, hs.shown⟩
    rcases List.mem_append.mp hbatch with hold | hnew
    · exact hs.queue batch hold
    · rw [List.mem_singleton.mp hnew]
      exact ha targets timestampMs rfl
  | stamp =>
    obtain ⟨client, hstamp, rfl⟩ := Option.map_eq_some_iff.mp hperform
    obtain ⟨-, rfl⟩ := DetectionClient.stamp_eq_some.mp hstamp
    exact ⟨hs.queue, hs.pacer, hs.tracker, hs.shown⟩
  | pacer =>
    obtain ⟨client, hpacer, rfl⟩ := Option.map_eq_some_iff.mp hperform
    exact pacer_has hP hs hpacer
  | watch =>
    obtain ⟨client, hwatch, rfl⟩ := Option.map_eq_some_iff.mp hperform
    obtain ⟨hqueue, hpacer, htracker, -, hshown, -⟩ := DetectionClient.watch_watched hwatch
    refine ⟨hqueue ▸ hs.queue, hpacer ▸ hs.pacer, htracker ▸ hs.tracker, ?_⟩
    rcases hshown with hsame | hempty
    · exact hsame ▸ hs.shown
    · rw [hempty]
      exact nofun
  | disconnect =>
    cases hperform
    exact disconnectStep_has hs

/-- What all messages of a run have is on the screen too. -/
theorem run_has (hP : P.Smooth) (h : Run Step (created now) acts t)
    (hacts : ∀ a ∈ acts, a.Has P) : t.client.Has P :=
  (h.guard hacts).invariant ⟨nofun, trivial, nofun, nofun⟩
    fun _ _ _ hs hstep => step_has hP hs hstep.1 hstep.2

end Session

/-- The box is not empty and lies in a picture of this size. -/
structure BoundingBox.Inside (b : BoundingBox) (w h : ℤ) : Prop where
  left : 0 ≤ b.x.toInt
  top : 0 ≤ b.y.toInt
  width : 1 ≤ b.width.toInt
  height : 1 ≤ b.height.toInt
  right : b.x.toInt + b.width.toInt ≤ w
  bottom : b.y.toInt + b.height.toInt ≤ h

/-- The average of two sides in the picture is one. -/
theorem emaInt_side {x l x' l' : Int32} {n : ℤ} (hx : 0 ≤ x.toInt) (hl : 1 ≤ l.toInt)
    (hn : x.toInt + l.toInt ≤ n) (hx' : 0 ≤ x'.toInt) (hl' : 1 ≤ l'.toInt)
    (hn' : x'.toInt + l'.toInt ≤ n) :
    0 ≤ (emaInt x x' (emaAlpha : ℚ)).toInt ∧ 1 ≤ (emaInt l l' (emaAlpha : ℚ)).toInt ∧
      (emaInt x x' (emaAlpha : ℚ)).toInt + (emaInt l l' (emaAlpha : ℚ)).toInt ≤ n := by
  have hpos {i : Int32} (hi : 0 ≤ i.toInt) : 0 ≤ i := Int32.le_iff_toInt_le.mpr hi
  rw [toInt_emaInt (hpos hx) (hpos hx'),
    toInt_emaInt (hpos (zero_le_one.trans hl)) (hpos (zero_le_one.trans hl'))]
  refine ⟨(le_inf hx hx').trans (floorMean_mem_emaAlpha _ _).1,
    (le_inf hl hl').trans (floorMean_mem_emaAlpha _ _).1, ?_⟩
  calc floorMean (7 / 10 : ℚ) x.toInt x'.toInt + floorMean (7 / 10 : ℚ) l.toInt l'.toInt
      ≤ floorMean (7 / 10 : ℚ) (x.toInt + l.toInt) (x'.toInt + l'.toInt) :=
        floorMean_add_le _ _ _ _ _
    _ ≤ max (x.toInt + l.toInt) (x'.toInt + l'.toInt) := (floorMean_mem_emaAlpha _ _).2
    _ ≤ n := max_le hn hn'

theorem smoothBbox_inside {old new : BoundingBox} {width height : ℤ}
    (hold : old.Inside width height) (hnew : new.Inside width height) :
    (smoothBbox ℚ old new).Inside width height := by
  obtain ⟨hx, hwidth, hright⟩ := emaInt_side hold.left hold.width hold.right hnew.left hnew.width
    hnew.right
  obtain ⟨hy, hheight, hbottom⟩ := emaInt_side hold.top hold.height hold.bottom hnew.top hnew.height
    hnew.bottom
  exact ⟨hx, hy, hwidth, hheight, hright, hbottom⟩

/-- A person whose box lies in the video. -/
structure InVideo (b : BoundingBox) (type : String) (confidence : ℚ) : Prop where
  box : b.Inside 1920 1080
  person : type = "HUMAN"
  confidence : 0 ≤ confidence ∧ confidence ≤ 1

theorem inVideo_smooth : TargetProperty.Smooth InVideo := by
  intro old new type type' confidence confidence' hold hnew
  refine ⟨smoothBbox_inside hold.box hnew.box, hnew.person, ?_⟩
  obtain ⟨hpos, hle⟩ := hold.confidence
  obtain ⟨hpos', hle'⟩ := hnew.confidence
  have halpha : (emaAlpha : ℚ) = 7 / 10 := by norm_num [emaAlpha]
  have hone : (1.0 : ℚ) = 1 := by norm_num
  rw [halpha, hone]
  constructor <;> linarith

end SnipeIt.Phone
