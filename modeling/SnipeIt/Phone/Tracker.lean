import Mathlib.Data.List.Sort
import Mathlib.Data.Rat.Floor
import SnipeIt.Support.Greedy

/-! # The tracker of the app (`RaspberryPiClient.kt`)

Every batch of detections is matched with the tracked targets by the overlap of
their boxes, the largest overlap first. What is not matched becomes a new target.
-/

namespace SnipeIt.Phone
open Support

/-- Kotlin's `Float` with its conversions from and to `Int`; no law of it is used. -/
class KotlinFloat (F : Type*) extends Add F, Sub F, Mul F, Div F, OfScientific F, LE F where
  toFloat : Int32 → F
  toInt : F → Int32
  decidableLE : DecidableLE F

instance KotlinFloat.instDecidableLE {F : Type*} [KotlinFloat F] : DecidableLE F :=
  KotlinFloat.decidableLE

/-- Numbers without rounding. -/
instance : KotlinFloat ℚ where
  toFloat n := n.toInt
  toInt q := Int32.ofIntClamp (q.num.tdiv q.den)
  decidableLE := inferInstance

/-- To cut off the fraction rounds down what is not negative. -/
theorem tdiv_of_nonneg {q : ℚ} (h : 0 ≤ q) : q.num.tdiv q.den = ⌊q⌋ := by
  rw [Int.tdiv_eq_ediv_of_nonneg (Rat.num_nonneg.mpr h), Rat.floor_def']

structure BoundingBox where
  x : Int32
  y : Int32
  width : Int32
  height : Int32
deriving DecidableEq

structure DetectedTarget (F : Type*) where
  id : String
  targetType : String
  confidence : F
  bbox : BoundingBox
  timestamp : ℤ

structure TrackedTarget (F : Type*) where
  visualId : String
  bbox : BoundingBox
  confidence : F
  targetType : String
  lastSeenAt : ℤ

/-- A tracked target and a detection that overlap. -/
structure Candidate (F : Type*) where
  trackId : String
  detIdx : ℕ
  iou : F

def trackedTargetTimeoutMs : ℤ := 600

def visualId (n : ℕ) : String := "T" ++ n.repr

theorem visualId_injective : Function.Injective visualId := by
  intro m n h
  have hrepr : m.repr = n.repr := by simpa [visualId] using h
  have hdigits : Nat.toDigits 10 m = Nat.toDigits 10 n := String.ofList_injective hrepr
  calc m = Nat.ofDigitChars 10 (Nat.toDigits 10 m) 0 :=
        Nat.ofDigitChars_ten_toDigits.symm
    _ = Nat.ofDigitChars 10 (Nat.toDigits 10 n) 0 := by rw [hdigits]
    _ = n := Nat.ofDigitChars_ten_toDigits

section Arithmetic

variable {F : Type*} [KotlinFloat F]

def iouMatchThreshold : F := 0.3

def emaAlpha : F := 0.7

def computeIoU (a b : BoundingBox) : F :=
  let x1 := max a.x b.x
  let y1 := max a.y b.y
  let x2 := min (a.x + a.width) (b.x + b.width)
  let y2 := min (a.y + a.height) (b.y + b.height)
  let intersection := max 0 (x2 - x1) * max 0 (y2 - y1)
  let union := a.width * a.height + b.width * b.height - intersection
  if 0 < union then KotlinFloat.toFloat intersection / KotlinFloat.toFloat union else 0.0

def emaInt (old new : Int32) (alpha : F) : Int32 :=
  KotlinFloat.toInt (alpha * KotlinFloat.toFloat new + (1.0 - alpha) * KotlinFloat.toFloat old)

def smoothBbox (F : Type*) [KotlinFloat F] (old new : BoundingBox) : BoundingBox where
  x := emaInt old.x new.x (emaAlpha : F)
  y := emaInt old.y new.y (emaAlpha : F)
  width := emaInt old.width new.width (emaAlpha : F)
  height := emaInt old.height new.height (emaAlpha : F)

def TrackedTarget.refresh (track : TrackedTarget F) (det : DetectedTarget F) (now : ℤ) :
    TrackedTarget F where
  visualId := track.visualId
  bbox := smoothBbox F track.bbox det.bbox
  confidence := emaAlpha * det.confidence + (1.0 - emaAlpha) * track.confidence
  targetType := det.targetType
  lastSeenAt := now

/-- The tracked target that an unmatched detection becomes. -/
def DetectedTarget.track (det : DetectedTarget F) (counter : ℕ) (now : ℤ) : TrackedTarget F where
  visualId := SnipeIt.Phone.visualId counter
  bbox := det.bbox
  confidence := det.confidence
  targetType := det.targetType
  lastSeenAt := now

/-- No match within the timeout. -/
def TrackedTarget.TimedOut (track : TrackedTarget F) (now : ℤ) : Prop :=
  trackedTargetTimeoutMs < now - track.lastSeenAt

instance (track : TrackedTarget F) (now : ℤ) : Decidable (track.TimedOut now) :=
  inferInstanceAs (Decidable (trackedTargetTimeoutMs < now - track.lastSeenAt))

def TrackedTarget.toDetected (track : TrackedTarget F) (now : ℤ) : DetectedTarget F where
  id := track.visualId
  targetType := track.targetType
  confidence := track.confidence
  bbox := track.bbox
  timestamp := now

/-- The fields `trackedTargets`, in the order of insertion, and `nextVisualIdCounter`. The counter
does not wrap around here. -/
structure Tracker (F : Type*) where
  trackedTargets : List (TrackedTarget F)
  nextVisualIdCounter : ℕ

/-- What the loop over the candidates changes. -/
structure Matching (F : Type*) where
  trackedTargets : List (TrackedTarget F)
  claimedTrackIds : List String
  claimedDetIdxs : List ℕ

namespace Tracker

def init : Tracker F := ⟨[], 1⟩

def candidates (tracks : List (TrackedTarget F)) (incoming : List (DetectedTarget F)) :
    List (Candidate F) :=
  tracks.flatMap fun track => incoming.zipIdx.filterMap fun det =>
    let iou : F := computeIoU track.bbox det.1.bbox
    if iouMatchThreshold ≤ iou then some ⟨track.visualId, det.2, iou⟩ else none

/-- The candidates by descending overlap, as a stable sort leaves them. -/
def sortedCandidates (tracks : List (TrackedTarget F)) (incoming : List (DetectedTarget F)) :
    List (Candidate F) :=
  (candidates tracks incoming).insertionSort fun c d => d.iou ≤ c.iou

def claim (now : ℤ) (incoming : List (DetectedTarget F)) (m : Matching F) (c : Candidate F) :
    Matching F :=
  if c.trackId ∈ m.claimedTrackIds ∨ c.detIdx ∈ m.claimedDetIdxs then m
  else match m.trackedTargets.find? (·.visualId = c.trackId), incoming[c.detIdx]? with
    | some _, some det =>
      -- the object in the map is changed in its place
      { trackedTargets := m.trackedTargets.map fun track =>
          if track.visualId = c.trackId then track.refresh det now else track
        claimedTrackIds := m.claimedTrackIds ++ [c.trackId]
        claimedDetIdxs := m.claimedDetIdxs ++ [c.detIdx] }
    | _, _ => m

def matching (s : Tracker F) (now : ℤ) (incoming : List (DetectedTarget F)) : Matching F :=
  (sortedCandidates s.trackedTargets incoming).foldl (claim now incoming) ⟨s.trackedTargets, [], []⟩

/-- A value of the map is replaced in its place or appended. -/
def put (tracks : List (TrackedTarget F)) (track : TrackedTarget F) : List (TrackedTarget F) :=
  if tracks.any (·.visualId = track.visualId) then
    tracks.map fun old => if old.visualId = track.visualId then track else old
  else tracks ++ [track]

/-- One turn of the loop over the detections, which makes a target of one that was not matched. -/
def addUnmatched (now : ℤ) (claimedDetIdxs : List ℕ) (s : Tracker F)
    (det : DetectedTarget F × ℕ) : Tracker F :=
  if det.2 ∈ claimedDetIdxs then s
  else
    { trackedTargets := put s.trackedTargets (det.1.track s.nextVisualIdCounter now)
      nextVisualIdCounter := s.nextVisualIdCounter + 1 }

def updated (s : Tracker F) (now : ℤ) (incoming : List (DetectedTarget F)) : Tracker F :=
  let m := s.matching now incoming
  incoming.zipIdx.foldl (addUnmatched now m.claimedDetIdxs)
    ⟨m.trackedTargets, s.nextVisualIdCounter⟩

def matchAndSmooth (s : Tracker F) (now : ℤ) (incoming : List (DetectedTarget F)) :
    Tracker F × List (DetectedTarget F) :=
  let added := s.updated now incoming
  -- the timeout is looked at last, when a target that has timed out may have been matched
  let kept := added.trackedTargets.filter fun track => ¬ track.TimedOut now
  ({ added with trackedTargets := kept }, kept.map (·.toDetected now))

/-- The ids that a call makes. -/
def given (s : Tracker F) (now : ℤ) (incoming : List (DetectedTarget F)) : List String :=
  (List.range' s.nextVisualIdCounter
    ((s.updated now incoming).nextVisualIdCounter - s.nextVisualIdCounter)).map visualId

/-- The ids that a call gives to a detection, old ones and new ones. -/
def assigned (s : Tracker F) (now : ℤ) (incoming : List (DetectedTarget F)) : List String :=
  (s.matching now incoming).claimedTrackIds ++ s.given now incoming

/-- Which detection of a call each of these ids was given to, by the detection's own id. -/
def assignments (s : Tracker F) (now : ℤ) (incoming : List (DetectedTarget F)) :
    List (String × String) :=
  let m := s.matching now incoming
  let unmatched := (List.range incoming.length).filter (· ∉ m.claimedDetIdxs)
  (m.claimedTrackIds.zip m.claimedDetIdxs ++ (s.given now incoming).zip unmatched).filterMap
    fun p => incoming[p.2]?.map fun det => (p.1, det.id)

theorem mem_given {s : Tracker F} {now : ℤ} {incoming : List (DetectedTarget F)} {id : String} :
    id ∈ s.given now incoming ↔ ∃ n, s.nextVisualIdCounter ≤ n ∧
      n < (s.updated now incoming).nextVisualIdCounter ∧ id = visualId n := by
  simp only [given, List.mem_map, List.mem_range'_1]
  constructor
  · rintro ⟨n, hn, rfl⟩
    exact ⟨n, hn.1, by omega, rfl⟩
  · rintro ⟨n, hle, hlt, rfl⟩
    exact ⟨n, by omega, rfl⟩

end Tracker

/-! ## What a call does to ids and times -/

def TrackedTarget.stamp (track : TrackedTarget F) : String × ℤ := (track.visualId, track.lastSeenAt)

def Candidate.clashes (c d : Candidate F) : Bool := c.trackId = d.trackId ∨ c.detIdx = d.detIdx

omit [KotlinFloat F] in
/-- A candidate is blocked if its target or its detection is taken. -/
theorem Candidate.blocked_iff (taken : List (Candidate F)) (c : Candidate F) :
    (c.trackId ∈ taken.map (·.trackId) ∨ c.detIdx ∈ taken.map (·.detIdx)) ↔
      Greedy.Blocked Candidate.clashes taken c := by
  simp only [Greedy.Blocked, Candidate.clashes, List.mem_map, Bool.decide_or, Bool.or_eq_true,
    decide_eq_true_eq]
  constructor
  · rintro (⟨b, hb, heq⟩ | ⟨b, hb, heq⟩)
    · exact ⟨b, hb, Or.inl heq.symm⟩
    · exact ⟨b, hb, Or.inr heq.symm⟩
  · rintro ⟨b, hb, heq | heq⟩
    · exact Or.inl ⟨b, hb, heq.symm⟩
    · exact Or.inr ⟨b, hb, heq.symm⟩

omit [KotlinFloat F] in
theorem Candidate.select_nodup (l : List (Candidate F)) :
    ((Greedy.select Candidate.clashes l).map (·.trackId)).Nodup ∧
      ((Greedy.select Candidate.clashes l).map (·.detIdx)).Nodup := by
  have hsymm : ∀ c d : Candidate F, c.clashes d = d.clashes c := fun c d => by
    simp only [Candidate.clashes, eq_comm]
  have happart := Greedy.select_pairwise Candidate.clashes hsymm l
  rw [List.Nodup, List.Nodup, List.pairwise_map, List.pairwise_map]
  constructor
  · exact happart.imp fun hclash heq => by simp [Candidate.clashes, heq] at hclash
  · exact happart.imp fun hclash heq => by simp [Candidate.clashes, heq] at hclash

namespace Tracker

/-- The ids and the times of the tracked targets after those in `claimed` were matched. -/
def matchedStamps (tracks : List (TrackedTarget F)) (now : ℤ) (claimed : List String) :
    List (String × ℤ) :=
  tracks.map fun track =>
    (track.visualId, if track.visualId ∈ claimed then now else track.lastSeenAt)

/-- The loop over candidates takes a greedy selection of them. -/
structure Takes (tracks : List (TrackedTarget F)) (now : ℤ) (l : List (Candidate F))
    (m : Matching F) : Prop where
  trackIds : m.claimedTrackIds = (Greedy.select Candidate.clashes l).map (·.trackId)
  detIdxs : m.claimedDetIdxs = (Greedy.select Candidate.clashes l).map (·.detIdx)
  stamps : m.trackedTargets.map (·.stamp) = matchedStamps tracks now m.claimedTrackIds

variable {tracks : List (TrackedTarget F)} {incoming : List (DetectedTarget F)} {now : ℤ}
  {l : List (Candidate F)} {m : Matching F} {c : Candidate F}

omit [KotlinFloat F] in
theorem Takes.blocked_iff (h : Takes tracks now l m) :
    (c.trackId ∈ m.claimedTrackIds ∨ c.detIdx ∈ m.claimedDetIdxs) ↔
      Greedy.Blocked Candidate.clashes (Greedy.select Candidate.clashes l) c := by
  rw [h.trackIds, h.detIdxs]
  exact Candidate.blocked_iff _ c

omit [KotlinFloat F] in
theorem Takes.ids (h : Takes tracks now l m) :
    m.trackedTargets.map (·.visualId) = tracks.map (·.visualId) := by
  have hfst := congrArg (List.map Prod.fst) h.stamps
  simpa [matchedStamps, TrackedTarget.stamp, Function.comp_def] using hfst

theorem stamps_refresh (tracks : List (TrackedTarget F)) (id : String) (det : DetectedTarget F)
    (now : ℤ) :
    (tracks.map fun track => if track.visualId = id then track.refresh det now else track).map
      (·.stamp) = (tracks.map (·.stamp)).map fun p => if p.1 = id then (p.1, now) else p := by
  rw [List.map_map, List.map_map]
  refine List.map_congr_left fun track _ => ?_
  by_cases hid : track.visualId = id <;>
    simp [TrackedTarget.stamp, TrackedTarget.refresh, hid]

theorem Takes.step (h : Takes tracks now l m) (htrack : c.trackId ∈ tracks.map (·.visualId))
    (hdet : c.detIdx < incoming.length) : Takes tracks now (l ++ [c]) (claim now incoming m c) := by
  by_cases hblocked : c.trackId ∈ m.claimedTrackIds ∨ c.detIdx ∈ m.claimedDetIdxs
  · have hselect := Greedy.select_concat_of_blocked (h.blocked_iff.mp hblocked)
    rw [claim, if_pos hblocked]
    exact ⟨by rw [hselect, h.trackIds], by rw [hselect, h.detIdxs], h.stamps⟩
  · have hselect := Greedy.select_concat_of_not_blocked (h.blocked_iff.not.mp hblocked)
    obtain ⟨found, hfound⟩ : ∃ found, m.trackedTargets.find? (·.visualId = c.trackId) =
        some found := by
      rw [← h.ids] at htrack
      obtain ⟨track, hmem, heq⟩ := List.mem_map.mp htrack
      rw [← Option.isSome_iff_exists, List.find?_isSome]
      exact ⟨track, hmem, by simpa using heq⟩
    rw [claim, if_neg hblocked, hfound, List.getElem?_eq_getElem hdet]
    refine ⟨by simp [hselect, h.trackIds], by simp [hselect, h.detIdxs], ?_⟩
    rw [stamps_refresh, h.stamps, matchedStamps, matchedStamps, List.map_map]
    refine List.map_congr_left fun track _ => ?_
    by_cases hid : track.visualId = c.trackId <;> simp [hid]

theorem candidate_valid (hc : c ∈ sortedCandidates tracks incoming) :
    c.trackId ∈ tracks.map (·.visualId) ∧ c.detIdx < incoming.length := by
  have hmem : c ∈ candidates tracks incoming := (List.perm_insertionSort _ _).mem_iff.mp hc
  simp only [candidates, List.mem_flatMap, List.mem_filterMap] at hmem
  obtain ⟨track, htrack, det, hdet, heq⟩ := hmem
  split_ifs at heq
  cases heq
  exact ⟨List.mem_map_of_mem htrack, by simpa using List.snd_lt_of_mem_zipIdx hdet⟩

theorem matching_takes (s : Tracker F) (now : ℤ) (incoming : List (DetectedTarget F)) :
    Takes s.trackedTargets now (sortedCandidates s.trackedTargets incoming)
      (s.matching now incoming) := by
  unfold matching
  have hvalid := fun c (hc : c ∈ sortedCandidates s.trackedTargets incoming) => candidate_valid hc
  generalize sortedCandidates s.trackedTargets incoming = l at hvalid
  induction l using List.reverseRecOn with
  | nil => exact ⟨rfl, rfl, by simp [matchedStamps, TrackedTarget.stamp]⟩
  | append_singleton l c ih =>
    rw [List.foldl_concat]
    obtain ⟨htrack, hdet⟩ := hvalid c (by simp)
    exact (ih fun c hc => hvalid c (List.mem_append_left _ hc)).step htrack hdet

/-- The ids that the counter will give are not in use. -/
def Fresh (s : Tracker F) : Prop :=
  ∀ n ≥ s.nextVisualIdCounter, ∀ track ∈ s.trackedTargets, track.visualId ≠ visualId n

omit [KotlinFloat F] in
theorem Fresh.put {s : Tracker F} (h : s.Fresh) {track : TrackedTarget F}
    (hid : track.visualId = visualId s.nextVisualIdCounter) :
    put s.trackedTargets track = s.trackedTargets ++ [track] := by
  have hnone : ¬ s.trackedTargets.any (·.visualId = track.visualId) = true := by
    rw [List.any_eq_true]
    rintro ⟨old, hold, heq⟩
    exact h _ (Nat.le_refl _) old hold (by simpa [hid] using heq)
  rw [Tracker.put, if_neg hnone]

omit [KotlinFloat F] in
/-- The new targets come behind the others, under the ids that the counter gives. -/
theorem Fresh.addUnmatched {s : Tracker F} (h : s.Fresh) (now : ℤ) (claimed : List ℕ)
    (dets : List (DetectedTarget F × ℕ)) :
    let t := dets.foldl (addUnmatched now claimed) s
    s.nextVisualIdCounter ≤ t.nextVisualIdCounter ∧
      t.trackedTargets.map (·.stamp) = s.trackedTargets.map (·.stamp) ++
        (List.range' s.nextVisualIdCounter
          (t.nextVisualIdCounter - s.nextVisualIdCounter)).map fun n => (visualId n, now) := by
  induction dets generalizing s with
  | nil => simp
  | cons det dets ih =>
    simp only [List.foldl_cons]
    by_cases hclaimed : det.2 ∈ claimed
    · rw [Tracker.addUnmatched, if_pos hclaimed]
      exact ih h
    · rw [Tracker.addUnmatched, if_neg hclaimed, h.put rfl]
      have hfresh : Fresh ⟨s.trackedTargets ++ [det.1.track s.nextVisualIdCounter now],
          s.nextVisualIdCounter + 1⟩ := by
        intro n hn track htrack
        dsimp only at hn
        rcases List.mem_append.mp htrack with htrack | htrack
        · exact h n (by omega) track htrack
        · rw [List.mem_singleton.mp htrack]
          exact fun heq => absurd (visualId_injective heq) (by omega)
      obtain ⟨hle, hstamps⟩ := ih hfresh
      generalize dets.foldl (Tracker.addUnmatched now claimed) _ = t at hle hstamps ⊢
      dsimp only at hle hstamps
      have hcount : t.nextVisualIdCounter - s.nextVisualIdCounter =
          t.nextVisualIdCounter - (s.nextVisualIdCounter + 1) + 1 := by omega
      refine ⟨by omega, ?_⟩
      rw [hstamps, hcount, List.range'_succ]
      simp [TrackedTarget.stamp, DetectedTarget.track]

theorem Fresh.updated {s : Tracker F} (h : s.Fresh) (now : ℤ)
    (incoming : List (DetectedTarget F)) :
    s.nextVisualIdCounter ≤ (s.updated now incoming).nextVisualIdCounter ∧
      (s.updated now incoming).trackedTargets.map (·.stamp) =
        matchedStamps s.trackedTargets now (s.matching now incoming).claimedTrackIds ++
          (s.given now incoming).map fun id => (id, now) := by
  have htakes := matching_takes s now incoming
  have hfresh : Fresh ⟨(s.matching now incoming).trackedTargets, s.nextVisualIdCounter⟩ := by
    intro n hn track htrack heq
    have hid : track.visualId ∈ s.trackedTargets.map (·.visualId) := by
      rw [← htakes.ids]
      exact List.mem_map_of_mem htrack
    obtain ⟨old, hold, hsame⟩ := List.mem_map.mp hid
    exact h n hn old hold (hsame.trans heq)
  have hadded := hfresh.addUnmatched now (s.matching now incoming).claimedDetIdxs incoming.zipIdx
  rw [htakes.stamps] at hadded
  rw [given, List.map_map]
  exact hadded

omit [KotlinFloat F] in
theorem id_of_mem_put {track new : TrackedTarget F} (h : track ∈ put tracks new) :
    track.visualId = new.visualId ∨ track ∈ tracks := by
  unfold put at h
  split_ifs at h
  · obtain ⟨old, hold, rfl⟩ := List.mem_map.mp h
    by_cases hid : old.visualId = new.visualId
    · exact Or.inl (by rw [if_pos hid])
    · rw [if_neg hid]
      exact Or.inr hold
  · rcases List.mem_append.mp h with hold | hnew
    · exact Or.inr hold
    · exact Or.inl (congrArg _ (List.mem_singleton.mp hnew))

omit [KotlinFloat F] in
/-- The loop over the detections only adds ids of the counter. -/
theorem id_of_mem_addUnmatched (claimed : List ℕ) (dets : List (DetectedTarget F × ℕ))
    (s : Tracker F) :
    let t := dets.foldl (addUnmatched now claimed) s
    s.nextVisualIdCounter ≤ t.nextVisualIdCounter ∧ ∀ track ∈ t.trackedTargets,
      (∃ old ∈ s.trackedTargets, old.visualId = track.visualId) ∨
        ∃ n, s.nextVisualIdCounter ≤ n ∧ n < t.nextVisualIdCounter ∧
          track.visualId = visualId n := by
  induction dets generalizing s with
  | nil => exact ⟨Nat.le_refl _, fun track htrack => Or.inl ⟨track, htrack, rfl⟩⟩
  | cons det dets ih =>
    simp only [List.foldl_cons]
    obtain ⟨hle, hids⟩ := ih (addUnmatched now claimed s det)
    by_cases hclaimed : det.2 ∈ claimed
    · rw [addUnmatched, if_pos hclaimed] at hle hids ⊢
      exact ⟨hle, hids⟩
    · rw [addUnmatched, if_neg hclaimed] at hle hids ⊢
      dsimp only at hle hids
      refine ⟨by omega, fun track htrack => ?_⟩
      rcases hids track htrack with ⟨old, hold, hid⟩ | ⟨n, hn, hlt, hid⟩
      · rcases id_of_mem_put hold with hnew | hold
        · exact Or.inr ⟨_, Nat.le_refl _, by omega, hid.symm.trans hnew⟩
        · exact Or.inl ⟨old, hold, hid⟩
      · exact Or.inr ⟨n, by omega, hlt, hid⟩

/-- A tracked target after both loops was there before, or it has an id of this call. -/
theorem id_of_mem_updated {s : Tracker F} {track : TrackedTarget F}
    (h : track ∈ (s.updated now incoming).trackedTargets) :
    (∃ old ∈ s.trackedTargets, old.visualId = track.visualId) ∨
      track.visualId ∈ s.given now incoming := by
  have hids := (id_of_mem_addUnmatched (s.matching now incoming).claimedDetIdxs incoming.zipIdx
    ⟨(s.matching now incoming).trackedTargets, s.nextVisualIdCounter⟩).2 track h
  rcases hids with ⟨old, hold, hid⟩ | ⟨n, hle, hlt, hid⟩
  · have hin : old.visualId ∈ s.trackedTargets.map (·.visualId) := by
      rw [← (matching_takes s now incoming).ids]
      exact List.mem_map_of_mem hold
    obtain ⟨first, hfirst, hsame⟩ := List.mem_map.mp hin
    exact Or.inl ⟨first, hfirst, hsame.trans hid⟩
  · exact Or.inr (mem_given.mpr ⟨n, hle, hlt, hid⟩)

theorem assigned_nil (s : Tracker F) (now : ℤ) : s.assigned now [] = [] := by
  have hcandidates : candidates s.trackedTargets ([] : List (DetectedTarget F)) = [] := by
    simp [candidates]
  simp [assigned, given, updated, matching, sortedCandidates, hcandidates]

/-- A tracked target after both loops got a detection, or is as it was. -/
theorem Fresh.mem_updated {s : Tracker F} (h : s.Fresh) {now : ℤ}
    {incoming : List (DetectedTarget F)} {track : TrackedTarget F}
    (htrack : track ∈ (s.updated now incoming).trackedTargets) :
    (track.visualId ∈ s.assigned now incoming ∧ track.lastSeenAt = now) ∨
      track.visualId ∉ s.assigned now incoming ∧
        ∃ old ∈ s.trackedTargets, old.stamp = track.stamp := by
  have hstamp : track.stamp ∈ (s.updated now incoming).trackedTargets.map (·.stamp) :=
    List.mem_map_of_mem htrack
  rw [(h.updated now incoming).2, List.mem_append] at hstamp
  rcases hstamp with hold | hnew
  · obtain ⟨old, hmem, heq⟩ := List.mem_map.mp hold
    have hid : old.visualId = track.visualId := congrArg Prod.fst heq
    have hseen := congrArg Prod.snd heq
    dsimp only at hseen
    by_cases hclaimed : old.visualId ∈ (s.matching now incoming).claimedTrackIds
    · rw [if_pos hclaimed] at hseen
      exact Or.inl ⟨List.mem_append_left _ (hid ▸ hclaimed), hseen.symm⟩
    · rw [if_neg hclaimed] at hseen
      refine Or.inr ⟨fun hassigned => ?_, old, hmem, Prod.ext hid hseen⟩
      rcases List.mem_append.mp hassigned with hin | hin
      · exact hclaimed (hid ▸ hin)
      · obtain ⟨n, hn, -, hgiven⟩ := mem_given.mp hin
        exact h n hn old hmem (hid.trans hgiven)
  · obtain ⟨id, hid, heq⟩ := List.mem_map.mp hnew
    have hsame : id = track.visualId := congrArg Prod.fst heq
    exact Or.inl ⟨List.mem_append_right _ (hsame ▸ hid), (congrArg Prod.snd heq).symm⟩

end Tracker

end Arithmetic

end SnipeIt.Phone
