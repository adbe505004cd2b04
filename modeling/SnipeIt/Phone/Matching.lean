import Mathlib.Algebra.Order.Ring.Unbundled.Rat
import Mathlib.Data.List.Perm.Basic
import SnipeIt.Phone.TrackedMap
import SnipeIt.Support.Relabel

/-! # Which detection goes to which target

Matching by the largest overlap first leaves no pair that would do better, and it
does not depend on the order in which the detector lists its detections.
-/

namespace SnipeIt.Phone
open Support

/-- A matching of pairs with a weight of at least `least`, such that every other pair of this kind
has a rival in it that weighs as much. -/
structure StableMatching {A B K : Type*} [LE K] (weight : A × B → Option K) (least : K)
    (pairs : List (A × B)) : Prop where
  left : (pairs.map Prod.fst).Nodup
  right : (pairs.map Prod.snd).Nodup
  weighs : ∀ p ∈ pairs, ∃ w, weight p = some w ∧ least ≤ w
  stable : ∀ p w, p ∉ pairs → weight p = some w → least ≤ w →
    ∃ q ∈ pairs, (q.1 = p.1 ∨ q.2 = p.2) ∧ ∃ v, weight q = some v ∧ w ≤ v

/-- The order of Kotlin's `Float` on overlaps that reach the threshold, where no NaN is. -/
class OrderedOverlap (F : Type*) [KotlinFloat F] : Prop where
  total : ∀ a b : F, iouMatchThreshold ≤ a → iouMatchThreshold ≤ b → a ≤ b ∨ b ≤ a
  trans : ∀ a b c : F, iouMatchThreshold ≤ a → iouMatchThreshold ≤ b → iouMatchThreshold ≤ c →
    a ≤ b → b ≤ c → a ≤ c
  antisymm : ∀ a b : F, iouMatchThreshold ≤ a → iouMatchThreshold ≤ b → a ≤ b → b ≤ a → a = b

instance : OrderedOverlap ℚ where
  total a b _ _ := le_total a b
  trans _ _ _ _ _ _ hab hbc := le_trans (α := ℚ) hab hbc
  antisymm _ _ _ _ hab hba := le_antisymm (α := ℚ) hab hba

variable {F : Type*} [KotlinFloat F]

namespace TrackerSession

/-- The overlap of a target, as the call finds it, with a detection. -/
def overlap (s : TrackerSession F) (incoming : List (DetectedTarget F)) (p : String × ℕ) :
    Option F :=
  (s.trackedTargets.get? p.1).bind fun track =>
    incoming[p.2]?.map fun det => computeIoU track.bbox det.bbox

variable {s : TrackerSession F} {now : ℤ} {incoming incoming' : List (DetectedTarget F)}
  {c : Candidate F}

theorem Keyed.mem_candidates_iff (hs : s.Keyed) :
    c ∈ Tracker.candidates s.trackedTargets.values incoming ↔
      s.overlap incoming c.pair = some c.iou ∧ iouMatchThreshold ≤ c.iou := by
  simp only [Tracker.candidates, List.mem_flatMap, List.mem_filterMap, overlap,
    Option.bind_eq_some_iff, Option.map_eq_some_iff]
  constructor
  · rintro ⟨track, htrack, ⟨det, idx⟩, hdet, heq⟩
    obtain ⟨id, hget⟩ := LinkedMap.mem_values_iff.mp htrack
    split_ifs at heq with hover
    cases heq
    rw [List.mk_mem_zipIdx_iff_getElem?] at hdet
    have hid : track.visualId = id := hs id track hget
    exact ⟨⟨track, by rw [Candidate.pair, hid, hget], det, hdet, rfl⟩, hover⟩
  · rintro ⟨⟨track, hget, det, hdet, heq⟩, hover⟩
    have hid : track.visualId = c.trackId := hs _ track hget
    refine ⟨track, LinkedMap.mem_values_iff.mpr ⟨_, hget⟩, (det, c.detIdx),
      List.mk_mem_zipIdx_iff_getElem?.mpr hdet, ?_⟩
    dsimp only
    rw [heq, if_pos hover, hid]

theorem candidates_ge (hc : c ∈ Tracker.candidates s.trackedTargets.values incoming) :
    iouMatchThreshold ≤ c.iou := by
  simp only [Tracker.candidates, List.mem_flatMap, List.mem_filterMap] at hc
  obtain ⟨track, -, det, -, heq⟩ := hc
  split_ifs at heq with hover
  cases heq
  exact hover

theorem sortedCandidates_pairwise [OrderedOverlap F] (s : TrackerSession F)
    (incoming : List (DetectedTarget F)) :
    (Tracker.sortedCandidates s.trackedTargets.values incoming).Pairwise
      fun c d => d.iou ≤ c.iou := by
  refine pairwise_insertionSort_of_mem ?_ ?_
  · exact fun c hc d hd =>
      OrderedOverlap.total d.iou c.iou (candidates_ge hd) (candidates_ge hc)
  · exact fun c hc d hd e he hcd hde => OrderedOverlap.trans e.iou d.iou c.iou
      (candidates_ge he) (candidates_ge hd) (candidates_ge hc) hde hcd

/-- The loop over the candidates makes a stable matching. -/
theorem Keyed.stableMatching [OrderedOverlap F] (hs : s.Keyed) (now : ℤ)
    (incoming : List (DetectedTarget F)) :
    StableMatching (s.overlap incoming) iouMatchThreshold (s.matching now incoming).absorbed := by
  have hm := hs.matching now incoming
  have hmem : ∀ c : Candidate F,
      c ∈ Tracker.sortedCandidates s.trackedTargets.values incoming ↔
        s.overlap incoming c.pair = some c.iou ∧ iouMatchThreshold ≤ c.iou := fun c => by
    rw [Tracker.sortedCandidates, List.mem_insertionSort, hs.mem_candidates_iff]
  refine ⟨hm.nodup.1, hm.nodup.2, ?_, ?_⟩
  · intro p hp
    rw [hm.absorbed] at hp
    obtain ⟨c, hc, rfl⟩ := List.mem_map.mp hp
    exact ⟨c.iou, (hmem c).mp (Greedy.mem_of_mem_select _ hc)⟩
  · intro p w hnot hp hle
    have hc := (hmem ⟨p.1, p.2, w⟩).mpr ⟨hp, hle⟩
    rw [hm.absorbed] at hnot ⊢
    obtain ⟨b, hb, hclash, hbefore⟩ := Greedy.exists_before_of_not_mem_select Candidate.clashes
      (sortedCandidates_pairwise s incoming) hc
      fun hselected => hnot (List.mem_map_of_mem hselected)
    refine ⟨b.pair, List.mem_map_of_mem hb, ?_, b.iou,
      ((hmem b).mp (Greedy.mem_of_mem_select _ hb)).1, hbefore⟩
    have hshared : p.1 = b.trackId ∨ p.2 = b.detIdx := by
      simpa [Candidate.clashes] using hclash
    exact hshared.imp Eq.symm Eq.symm

/-- The same with exact overlaps. -/
theorem matching_stable (s : TrackerSession ℚ) (hs : s.Keyed) (now : ℤ)
    (incoming : List (DetectedTarget ℚ)) :
    StableMatching (s.overlap incoming) (iouMatchThreshold : ℚ)
      (s.matching now incoming).absorbed :=
  hs.stableMatching now incoming

/-- Two persons side by side, and what the next frames show of them. -/
def twoPersons : TrackerCall ℚ :=
  ⟨1000, [⟨"1", "person", 0.9, ⟨100, 100, 50, 120⟩, 0⟩,
    ⟨"2", "person", 0.8, ⟨130, 100, 50, 120⟩, 0⟩]⟩

def around (id : String) : DetectedTarget ℚ := ⟨id, "person", 0.9, ⟨102, 100, 50, 120⟩, 100⟩

def beside (id : String) : DetectedTarget ℚ := ⟨id, "person", 0.7, ⟨125, 101, 50, 120⟩, 100⟩

theorem matching_stable_two : ∃ s : TrackerSession ℚ,
    (s.matching 1100 [beside "1", around "2"]).absorbed = [("T1", 1), ("T2", 0)] ∧
    ("T1", 0) ∈ (Tracker.candidates s.trackedTargets.values [beside "1", around "2"]).map (·.pair) ∧
    StableMatching (s.overlap [beside "1", around "2"]) (iouMatchThreshold : ℚ)
      (s.matching 1100 [beside "1", around "2"]).absorbed := by
  have hkept := (Bookkeeping.start_kept (F := ℚ)).after twoPersons
  exact ⟨_, by decide +kernel, by decide +kernel,
    matching_stable _ hkept.keyed 1100 [beside "1", around "2"]⟩

end TrackerSession

/-! ## The detections in another order -/

/-- What the tracker looks at in a detection. -/
def DetectedTarget.anonymous (det : DetectedTarget F) : BoundingBox × F × String :=
  (det.bbox, det.confidence, det.targetType)

def TrackedTarget.unnamed (track : TrackedTarget F) : BoundingBox × F × String × ℤ :=
  (track.bbox, track.confidence, track.targetType, track.lastSeenAt)

def Candidate.relabel (σ : Equiv.Perm ℕ) (c : Candidate F) : Candidate F :=
  { c with detIdx := σ c.detIdx }

omit [KotlinFloat F] in
theorem Candidate.clashes_relabel (σ : Equiv.Perm ℕ) (c d : Candidate F) :
    (c.relabel σ).clashes (d.relabel σ) = c.clashes d := by
  simp only [clashes, relabel, σ.apply_eq_iff_eq]

theorem refresh_congr {det det' : DetectedTarget F} (h : det.anonymous = det'.anonymous)
    (track : TrackedTarget F) (now : ℤ) : track.refresh det now = track.refresh det' now := by
  obtain ⟨hbbox, hrest⟩ := Prod.mk.inj h
  obtain ⟨hconfidence, htype⟩ := Prod.mk.inj hrest
  rw [TrackedTarget.refresh, TrackedTarget.refresh, hbbox, hconfidence, htype]

def candidatesOf (track : TrackedTarget F) (seen : List (BoundingBox × F × String)) :
    List (Candidate F) :=
  seen.zipIdx.filterMap fun d =>
    let iou : F := computeIoU track.bbox d.1.1
    if iouMatchThreshold ≤ iou then some ⟨track.visualId, d.2, iou⟩ else none

theorem candidates_eq (tracks : List (TrackedTarget F)) (incoming : List (DetectedTarget F)) :
    Tracker.candidates tracks incoming =
      tracks.flatMap fun track => candidatesOf track (incoming.map (·.anonymous)) := by
  simp only [Tracker.candidates, candidatesOf, List.zipIdx_map, List.filterMap_map]
  rfl

theorem candidatesOf_relabel {σ : Equiv.Perm ℕ} {seen seen' : List (BoundingBox × F × String)}
    (h : Relabels σ seen seen') (track : TrackedTarget F) :
    (candidatesOf track seen').Perm ((candidatesOf track seen).map (·.relabel σ)) := by
  refine (h.zipIdx_perm.filterMap _).trans (List.Perm.of_eq ?_)
  rw [candidatesOf, List.filterMap_map, List.map_filterMap]
  refine List.filterMap_congr fun d _ => ?_
  dsimp only [Function.comp_apply]
  split_ifs <;> rfl

namespace TrackerSession

variable {s : TrackerSession F} {now : ℤ} {incoming incoming' : List (DetectedTarget F)}
  {c : Candidate F} {σ : Equiv.Perm ℕ}

theorem candidates_relabel (s : TrackerSession F)
    (h : Relabels σ (incoming.map (·.anonymous)) (incoming'.map (·.anonymous))) :
    (Tracker.candidates s.trackedTargets.values incoming').Perm
      ((Tracker.candidates s.trackedTargets.values incoming).map (·.relabel σ)) := by
  rw [candidates_eq, candidates_eq, List.map_flatMap]
  exact List.Perm.flatMap_left _ fun track _ => candidatesOf_relabel h track

/-- Overlaps that differ leave one order of the candidates. -/
theorem sortedCandidates_relabel [OrderedOverlap F] (s : TrackerSession F)
    (h : Relabels σ (incoming.map (·.anonymous)) (incoming'.map (·.anonymous)))
    (hdistinct : ((Tracker.candidates s.trackedTargets.values incoming).map (·.iou)).Nodup) :
    Tracker.sortedCandidates s.trackedTargets.values incoming' =
      (Tracker.sortedCandidates s.trackedTargets.values incoming).map (·.relabel σ) := by
  have hperm := s.candidates_relabel h
  have hrelabelled : ((Tracker.candidates s.trackedTargets.values incoming).map
      (·.relabel σ)).map (·.iou) =
        (Tracker.candidates s.trackedTargets.values incoming).map (·.iou) := by
    rw [List.map_map]
    rfl
  have hdistinct' :
      ((Tracker.candidates s.trackedTargets.values incoming').map (·.iou)).Nodup := by
    rw [(hperm.map _).nodup_iff, hrelabelled]
    exact hdistinct
  have hge := fun c (hc : c ∈ Tracker.candidates s.trackedTargets.values incoming') =>
    candidates_ge hc
  have hsort := List.map_insertionSort (fun c d : Candidate F => d.iou ≤ c.iou)
    (fun c d => d.iou ≤ c.iou) (Candidate.relabel σ)
    (Tracker.candidates s.trackedTargets.values incoming) fun _ _ _ _ => Iff.rfl
  rw [Tracker.sortedCandidates, insertionSort_eq_of_perm hperm, Tracker.sortedCandidates, hsort]
  · exact fun c hc d hd => OrderedOverlap.total d.iou c.iou (hge d hd) (hge c hc)
  · exact fun c hc d hd e he hcd hde => OrderedOverlap.trans e.iou d.iou c.iou
      (hge e he) (hge d hd) (hge c hc) hde hcd
  · exact fun c hc d hd hcd hdc => List.inj_on_of_nodup_map hdistinct' hc hd
      (OrderedOverlap.antisymm c.iou d.iou (hge c hc) (hge d hd) hdc hcd)

theorem Keyed.absorbed_relabel [OrderedOverlap F] (hs : s.Keyed) (now : ℤ)
    (h : Relabels σ (incoming.map (·.anonymous)) (incoming'.map (·.anonymous)))
    (hdistinct : ((Tracker.candidates s.trackedTargets.values incoming).map (·.iou)).Nodup) :
    (s.matching now incoming').absorbed =
      (s.matching now incoming).absorbed.map fun p => (p.1, σ p.2) := by
  rw [(hs.matching now incoming').absorbed, (hs.matching now incoming).absorbed,
    s.sortedCandidates_relabel h hdistinct,
    Greedy.select_map Candidate.clashes Candidate.clashes _ (Candidate.clashes_relabel σ),
    List.map_map, List.map_map]
  rfl

/-- After the loop over the candidates the map is the same. -/
theorem Keyed.matching_relabel [OrderedOverlap F] (hs : s.Keyed) (now : ℤ)
    (h : Relabels σ (incoming.map (·.anonymous)) (incoming'.map (·.anonymous)))
    (hdistinct : ((Tracker.candidates s.trackedTargets.values incoming).map (·.iou)).Nodup)
    (id : String) : (s.matching now incoming').trackedTargets.get? id =
      (s.matching now incoming).trackedTargets.get? id := by
  have hm := hs.matching now incoming
  have hm' := hs.matching now incoming'
  have habsorbed := hs.absorbed_relabel now h hdistinct
  have hids : (s.matching now incoming').claimedTrackIds =
      (s.matching now incoming).claimedTrackIds := by
    rw [hm'.trackIds, hm.trackIds, habsorbed, List.map_map]
    rfl
  by_cases hid : id ∈ (s.matching now incoming).claimedTrackIds
  · rw [hm.trackIds] at hid
    obtain ⟨p, hp, rfl⟩ := List.mem_map.mp hid
    have hp' : (p.1, σ p.2) ∈ (s.matching now incoming').absorbed := by
      rw [habsorbed]
      exact List.mem_map_of_mem hp
    obtain ⟨track, det, hget, hdet, hrefreshed⟩ := hm.matched p hp
    obtain ⟨track', det', hget', hdet', hrefreshed'⟩ := hm'.matched _ hp'
    have htrack : track' = track := Option.some.inj (hget'.symm.trans hget)
    have hseen : det'.anonymous = det.anonymous := by
      have hi := h p.2
      rw [List.getElem?_map, List.getElem?_map, hdet, hdet'] at hi
      exact Option.some.inj hi
    rw [hrefreshed, hrefreshed', htrack, refresh_congr hseen]
  · rw [hm.unmatched id hid, hm'.unmatched id (hids ▸ hid)]

theorem Fresh.updated_get? (hfresh : s.Fresh) (hs : s.Keyed) {track : TrackedTarget F}
    {id : String} (hget : s.trackedTargets.get? id = some track) :
    (s.updated now incoming).trackedTargets.get? id =
      (s.matching now incoming).trackedTargets.get? id := by
  obtain ⟨created, hadded⟩ := s.exists_added now incoming
  refine hadded.old id fun q hq heq => ?_
  have hle := (hadded.lt_counter hq).1
  rw [(hs.matching now incoming).counter] at hle
  rw [← heq, hfresh q.1 hle] at hget
  cases hget

/-- The targets of the session `t` that are not in `s`, without their ids. -/
def newTargets (s t : TrackerSession F) : List (BoundingBox × F × String × ℤ) :=
  (t.trackedTargets.entries.filter fun e => e.1 ∉ s.trackedTargets.keys).map fun e => e.2.unnamed

/-- The targets that a call makes of the detections that it did not match. -/
def unmatchedTargets (now : ℤ) (seen : List (BoundingBox × F × String)) (claimed : List ℕ) :
    List (BoundingBox × F × String × ℤ) :=
  ((List.range seen.length).filter (· ∉ claimed)).filterMap fun i =>
    seen[i]?.map fun d => (d.1, d.2.1, d.2.2, now)

omit [KotlinFloat F] in
theorem unmatchedTargets_relabel {seen seen' : List (BoundingBox × F × String)}
    (h : Relabels σ seen seen') (now : ℤ) (claimed : List ℕ) :
    (unmatchedTargets now seen' (claimed.map σ)).Perm (unmatchedTargets now seen claimed) := by
  refine ((h.range_perm.filter _).filterMap _).trans (List.Perm.of_eq ?_)
  have hclaimed : ∀ i, σ i ∈ claimed.map σ ↔ i ∈ claimed := fun i =>
    List.mem_map_of_injective σ.injective
  have hget : (fun i => seen'[i]?.map fun d => (d.1, d.2.1, d.2.2, now)) ∘ σ =
      fun i => seen[i]?.map fun d => (d.1, d.2.1, d.2.2, now) := by
    funext i
    rw [Function.comp_apply, h i]
  rw [List.filter_map, List.filterMap_map, unmatchedTargets, hget]
  congr 1
  exact List.filter_congr fun i _ => by simp only [Function.comp_apply, hclaimed]

/-- The entries of the targets that the counter gave an id to. -/
def createdEntries (now : ℤ) (incoming : List (DetectedTarget F)) (created : List (ℕ × ℕ)) :
    List (String × TrackedTarget F) :=
  created.filterMap fun q => incoming[q.2]?.map fun det => (visualId q.1, det.track q.1 now)

omit [KotlinFloat F] in
theorem Added.createdEntries_nodup {m t : CallState F} {dets : List (DetectedTarget F × ℕ)}
    {created : List (ℕ × ℕ)} (h : Added m now incoming dets created t) :
    (createdEntries now incoming created).Nodup := by
  have hcounter : created.Pairwise fun q r => q.1 ≠ r.1 := by
    rw [← List.pairwise_map, h.values]
    exact List.nodup_range' 1
  rw [createdEntries, List.Nodup, List.pairwise_filterMap]
  refine hcounter.imp fun hne e he e' he' heq => hne ?_
  obtain ⟨det, -, rfl⟩ := Option.map_eq_some_iff.mp he
  obtain ⟨det', -, rfl⟩ := Option.map_eq_some_iff.mp he'
  exact visualId_injective (Prod.mk.inj heq).1

omit [KotlinFloat F] in
theorem live_track (det : DetectedTarget F) (n : ℕ) (now : ℤ) :
    ¬ (det.track n now).TimedOut now := by
  rw [TrackedTarget.TimedOut, DetectedTarget.track, Int.sub_self]
  decide

theorem Keyed.newEntries_perm (hs : s.Keyed) (hfresh : s.Fresh) {created : List (ℕ × ℕ)}
    (hadded : Added (s.matching now incoming) now incoming incoming.zipIdx created
      (s.updated now incoming)) :
    ((s.matchAndSmooth now incoming).1.trackedTargets.entries.filter
      fun e => e.1 ∉ s.trackedTargets.keys).Perm (createdEntries now incoming created) := by
  have hm := hs.matching now incoming
  refine (List.perm_ext_iff_of_nodup (.filter _ (.of_map Prod.fst (LinkedMap.nodup _)))
    hadded.createdEntries_nodup).mpr ?_
  rintro ⟨id, track⟩
  rw [List.mem_filter, ← LinkedMap.get?_eq_some_iff, get?_matchAndSmooth,
    Option.filter_eq_some_iff, createdEntries, List.mem_filterMap]
  constructor
  · rintro ⟨⟨hget, -⟩, hid⟩
    have hnot : id ∉ s.trackedTargets.keys := by simpa using hid
    by_cases hnew : ∃ q ∈ created, visualId q.1 = id
    · obtain ⟨q, hq, rfl⟩ := hnew
      obtain ⟨det, hdet, hput⟩ := hadded.new q hq
      rw [hput, Option.some.injEq] at hget
      exact ⟨q, hq, by rw [hdet, ← hget]; rfl⟩
    · -- a key that is neither old nor new
      have hold : ∀ q ∈ created, visualId q.1 ≠ id := fun q hq heq => hnew ⟨q, hq, heq⟩
      have hnone : (s.matching now incoming).trackedTargets.get? id = none := by
        rwa [LinkedMap.get?_eq_none_iff, hm.keys]
      rw [hadded.old id hold, hnone] at hget
      cases hget
  · rintro ⟨q, hq, heq⟩
    obtain ⟨det, hdet, heq⟩ := Option.map_eq_some_iff.mp heq
    obtain ⟨rfl, rfl⟩ := Prod.mk.inj heq
    obtain ⟨det', hdet', hput⟩ := hadded.new q hq
    have hsame : det' = det := Option.some.inj (hdet'.symm.trans hdet)
    have hle := (hadded.lt_counter hq).1
    rw [hm.counter] at hle
    have hnot := LinkedMap.get?_eq_none_iff.mp (hfresh q.1 hle)
    exact ⟨⟨hsame ▸ hput, by simp [live_track]⟩, by simpa using hnot⟩

/-- The new targets of a call are those of the detections that were not matched. -/
theorem Keyed.newTargets_perm (hs : s.Keyed) (hfresh : s.Fresh) (now : ℤ)
    (incoming : List (DetectedTarget F)) :
    (s.newTargets (s.matchAndSmooth now incoming).1).Perm
      (unmatchedTargets now (incoming.map (·.anonymous))
        (s.matching now incoming).claimedDetIdxs) := by
  obtain ⟨created, hadded⟩ := s.exists_added now incoming
  refine ((hs.newEntries_perm hfresh hadded).map _).trans (List.Perm.of_eq ?_)
  have hidxs : created.map Prod.snd =
      (List.range (incoming.map (·.anonymous)).length).filter
        (· ∉ (s.matching now incoming).claimedDetIdxs) := by
    rw [hadded.detIdxs, List.zipIdx_map_snd, List.length_map, List.range_eq_range']
  rw [unmatchedTargets, ← hidxs, List.filterMap_map, createdEntries, List.map_filterMap]
  refine List.filterMap_congr fun q _ => ?_
  rw [Function.comp_apply, List.getElem?_map, Option.map_map, Option.map_map]
  rfl

/-- The order of the detections and their ids make no difference to the targets. -/
theorem matchAndSmooth_perm [OrderedOverlap F] (s : TrackerSession F) (hs : s.Keyed)
    (hfresh : s.Fresh) (now : ℤ) (incoming incoming' : List (DetectedTarget F))
    (hdistinct : ((Tracker.candidates s.trackedTargets.values incoming).map (·.iou)).Nodup)
    (hperm : (incoming.map (·.anonymous)).Perm (incoming'.map (·.anonymous))) :
    (∀ id track, s.trackedTargets.get? id = some track →
      (s.matchAndSmooth now incoming').1.trackedTargets.get? id =
        (s.matchAndSmooth now incoming).1.trackedTargets.get? id) ∧
    (s.newTargets (s.matchAndSmooth now incoming').1).Perm
      (s.newTargets (s.matchAndSmooth now incoming).1) := by
  obtain ⟨σ, hσ⟩ := relabels_of_perm hperm
  constructor
  · intro id track hget
    rw [get?_matchAndSmooth, get?_matchAndSmooth, hfresh.updated_get? hs hget,
      hfresh.updated_get? hs hget, hs.matching_relabel now hσ hdistinct]
  · have hclaimed : (s.matching now incoming').claimedDetIdxs =
        (s.matching now incoming).claimedDetIdxs.map σ := by
      rw [(hs.matching now incoming').detIdxs, (hs.matching now incoming).detIdxs,
        hs.absorbed_relabel now hσ hdistinct, List.map_map, List.map_map]
      rfl
    have hnew' := hs.newTargets_perm hfresh now incoming'
    rw [hclaimed] at hnew'
    have hnew := hs.newTargets_perm hfresh now incoming
    exact hnew'.trans ((unmatchedTargets_relabel hσ now _).trans hnew.symm)

/-- Two persons tracked, and the detections of the next frame in both orders. -/
theorem matchAndSmooth_perm_two : ∃ s : TrackerSession ℚ,
    s.trackedTargets.keys = ["T1", "T2"] ∧
    (∀ id track, s.trackedTargets.get? id = some track →
      (s.matchAndSmooth 1100 [beside "1", around "2"]).1.trackedTargets.get? id =
        (s.matchAndSmooth 1100 [around "1", beside "2"]).1.trackedTargets.get? id) ∧
    (s.newTargets (s.matchAndSmooth 1100 [beside "1", around "2"]).1).Perm
      (s.newTargets (s.matchAndSmooth 1100 [around "1", beside "2"]).1) := by
  have hkept := (Bookkeeping.start_kept (F := ℚ)).after twoPersons
  exact ⟨_, by decide +kernel, matchAndSmooth_perm _ hkept.keyed hkept.fresh 1100
    [around "1", beside "2"] [beside "1", around "2"] (by decide +kernel) (.swap _ _ [])⟩

end TrackerSession

end SnipeIt.Phone
