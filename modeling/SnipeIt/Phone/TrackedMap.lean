import SnipeIt.Phone.TrackExpiry
import SnipeIt.Support.LinkedMap

/-! # The tracked targets by their keys

`matchAndSmooth` on the map that it changes in three passes: matched targets are
refreshed under their key, other detections are put under a new one, and the keys
of targets that have timed out are removed.
-/

namespace SnipeIt.Phone
open Support

variable {F : Type*} [KotlinFloat F]

/-- `trackedTargets` with its keys, and `nextVisualIdCounter`. The counter does not wrap around
here. -/
structure TrackerSession (F : Type*) where
  trackedTargets : LinkedMap String (TrackedTarget F)
  nextVisualIdCounter : ℕ

/-- The fields and the local variables of a call, with a record of the keys under which each
detection was absorbed. -/
structure CallState (F : Type*) extends TrackerSession F where
  claimedTrackIds : List String
  claimedDetIdxs : List ℕ
  absorbed : List (String × ℕ)

def Candidate.pair (c : Candidate F) : String × ℕ := (c.trackId, c.detIdx)

namespace TrackerSession

def init : TrackerSession F := ⟨.empty, 1⟩

def claim (now : ℤ) (incoming : List (DetectedTarget F)) (m : CallState F) (c : Candidate F) :
    CallState F :=
  if c.trackId ∈ m.claimedTrackIds ∨ c.detIdx ∈ m.claimedDetIdxs then m
  else match m.trackedTargets.get? c.trackId, incoming[c.detIdx]? with
    | some _, some det =>
      { m with
        trackedTargets := m.trackedTargets.modify c.trackId fun track => track.refresh det now
        claimedTrackIds := m.claimedTrackIds ++ [c.trackId]
        claimedDetIdxs := m.claimedDetIdxs ++ [c.detIdx]
        absorbed := m.absorbed ++ [c.pair] }
    | _, _ => m

def matching (s : TrackerSession F) (now : ℤ) (incoming : List (DetectedTarget F)) : CallState F :=
  (Tracker.sortedCandidates s.trackedTargets.values incoming).foldl (claim now incoming)
    ⟨s, [], [], []⟩

def addUnmatched (now : ℤ) (m : CallState F) (det : DetectedTarget F × ℕ) : CallState F :=
  if det.2 ∈ m.claimedDetIdxs then m
  else
    { m with
      trackedTargets := m.trackedTargets.put (visualId m.nextVisualIdCounter)
        (det.1.track m.nextVisualIdCounter now)
      nextVisualIdCounter := m.nextVisualIdCounter + 1
      absorbed := m.absorbed ++ [(visualId m.nextVisualIdCounter, det.2)] }

def updated (s : TrackerSession F) (now : ℤ) (incoming : List (DetectedTarget F)) : CallState F :=
  incoming.zipIdx.foldl (addUnmatched now) (s.matching now incoming)

def toRemove (s : TrackerSession F) (now : ℤ) (incoming : List (DetectedTarget F)) : List String :=
  ((s.updated now incoming).trackedTargets.filterValues fun track => track.TimedOut now).keys

def matchAndSmooth (s : TrackerSession F) (now : ℤ) (incoming : List (DetectedTarget F)) :
    TrackerSession F × List (DetectedTarget F) :=
  let m := s.updated now incoming
  let kept := m.trackedTargets.removeAll (s.toRemove now incoming)
  (⟨kept, m.nextVisualIdCounter⟩, kept.values.map (·.toDetected now))

/-- Every key is its target's id. -/
def Keyed (s : TrackerSession F) : Prop := s.trackedTargets.KeyedBy (·.visualId)

/-- No key is one that the counter has still to give. -/
def Fresh (s : TrackerSession F) : Prop :=
  ∀ n ≥ s.nextVisualIdCounter, s.trackedTargets.get? (visualId n) = none

variable {s : TrackerSession F} {now : ℤ} {incoming : List (DetectedTarget F)}
  {l : List (Candidate F)} {m : CallState F} {c : Candidate F} {id : String}

/-! ## The loop over the candidates -/

/-- What the loop has done when it has seen the candidates `l`. -/
structure Claimed (s : TrackerSession F) (now : ℤ) (incoming : List (DetectedTarget F))
    (l : List (Candidate F)) (m : CallState F) : Prop where
  absorbed : m.absorbed = (Greedy.select Candidate.clashes l).map (·.pair)
  trackIds : m.claimedTrackIds = m.absorbed.map Prod.fst
  detIdxs : m.claimedDetIdxs = m.absorbed.map Prod.snd
  counter : m.nextVisualIdCounter = s.nextVisualIdCounter
  keys : m.trackedTargets.keys = s.trackedTargets.keys
  unmatched : ∀ id ∉ m.claimedTrackIds, m.trackedTargets.get? id = s.trackedTargets.get? id
  matched : ∀ p ∈ m.absorbed, ∃ track det, s.trackedTargets.get? p.1 = some track ∧
    incoming[p.2]? = some det ∧ m.trackedTargets.get? p.1 = some (track.refresh det now)

theorem Claimed.blocked_iff (h : Claimed s now incoming l m) :
    (c.trackId ∈ m.claimedTrackIds ∨ c.detIdx ∈ m.claimedDetIdxs) ↔
      Greedy.Blocked Candidate.clashes (Greedy.select Candidate.clashes l) c := by
  rw [h.trackIds, h.detIdxs, h.absorbed, List.map_map, List.map_map]
  exact Candidate.blocked_iff _ c

theorem Claimed.step (h : Claimed s now incoming l m) (htrack : c.trackId ∈ s.trackedTargets.keys)
    (hdet : c.detIdx < incoming.length) :
    Claimed s now incoming (l ++ [c]) (claim now incoming m c) := by
  by_cases hblocked : c.trackId ∈ m.claimedTrackIds ∨ c.detIdx ∈ m.claimedDetIdxs
  · have hselect := Greedy.select_concat_of_blocked (h.blocked_iff.mp hblocked)
    rw [claim, if_pos hblocked]
    exact { h with absorbed := by rw [hselect, h.absorbed] }
  · have hselect := Greedy.select_concat_of_not_blocked (h.blocked_iff.not.mp hblocked)
    obtain ⟨hid, -⟩ := not_or.mp hblocked
    obtain ⟨track, hs⟩ := LinkedMap.mem_keys_iff.mp htrack
    have hm : m.trackedTargets.get? c.trackId = some track := by rw [h.unmatched _ hid, hs]
    have hincoming := List.getElem?_eq_getElem hdet
    rw [claim, if_neg hblocked, hm, hincoming]
    exact
      { absorbed := by rw [hselect, h.absorbed, List.map_append, List.map_singleton]
        trackIds := by rw [h.trackIds, List.map_append, List.map_singleton]; rfl
        detIdxs := by rw [h.detIdxs, List.map_append, List.map_singleton]; rfl
        counter := h.counter
        keys := by rw [LinkedMap.keys_modify, h.keys]
        unmatched := by
          intro id hnot
          rw [List.mem_append, List.mem_singleton, not_or] at hnot
          rw [LinkedMap.get?_modify, if_neg hnot.2, h.unmatched id hnot.1]
        matched := by
          intro p hp
          rcases List.mem_append.mp hp with hp | hp
          · -- an older pair has another key
            have hne : p.1 ≠ c.trackId := by
              rintro heq
              rw [h.trackIds, ← heq] at hid
              exact hid (List.mem_map_of_mem hp)
            rw [LinkedMap.get?_modify, if_neg hne]
            exact h.matched p hp
          · rw [List.mem_singleton.mp hp]
            exact ⟨track, _, hs, hincoming, by simp [Candidate.pair, hm]⟩ }

theorem Keyed.matching (h : s.Keyed) (now : ℤ) (incoming : List (DetectedTarget F)) :
    Claimed s now incoming (Tracker.sortedCandidates s.trackedTargets.values incoming)
      (s.matching now incoming) := by
  unfold TrackerSession.matching
  have hvalid : ∀ c ∈ Tracker.sortedCandidates s.trackedTargets.values incoming,
      c.trackId ∈ s.trackedTargets.keys ∧ c.detIdx < incoming.length := by
    intro c hc
    rw [← h.map_values]
    exact Tracker.candidate_valid hc
  generalize Tracker.sortedCandidates s.trackedTargets.values incoming = l at hvalid
  induction l using List.reverseRecOn with
  | nil => exact ⟨rfl, rfl, rfl, rfl, rfl, fun _ _ => rfl, fun p hp => by cases hp⟩
  | append_singleton l c ih =>
    rw [List.foldl_concat]
    obtain ⟨htrack, hdet⟩ := hvalid c (by simp)
    exact (ih fun c hc => hvalid c (List.mem_append_left _ hc)).step htrack hdet

/-- Each key and each detection is claimed at most once. -/
theorem Claimed.nodup (h : Claimed s now incoming l m) :
    (m.absorbed.map Prod.fst).Nodup ∧ (m.absorbed.map Prod.snd).Nodup := by
  rw [h.absorbed, List.map_map, List.map_map]
  exact Candidate.select_nodup l

/-! ## The loop over the detections -/

/-- What the loop makes of the detections `dets` when it starts from `m`: the values that the
counter gives and the detections that they go to. -/
structure Added (m : CallState F) (now : ℤ) (incoming : List (DetectedTarget F))
    (dets : List (DetectedTarget F × ℕ)) (created : List (ℕ × ℕ)) (t : CallState F) : Prop where
  values : created.map Prod.fst = List.range' m.nextVisualIdCounter created.length
  detIdxs : created.map Prod.snd = (dets.map Prod.snd).filter (· ∉ m.claimedDetIdxs)
  claimed : t.claimedDetIdxs = m.claimedDetIdxs
  absorbed : t.absorbed = m.absorbed ++ created.map fun q => (visualId q.1, q.2)
  counter : t.nextVisualIdCounter = m.nextVisualIdCounter + created.length
  old : ∀ id, (∀ q ∈ created, visualId q.1 ≠ id) →
    t.trackedTargets.get? id = m.trackedTargets.get? id
  new : ∀ q ∈ created, ∃ det, incoming[q.2]? = some det ∧
    t.trackedTargets.get? (visualId q.1) = some (det.track q.1 now)

variable {t : CallState F} {dets : List (DetectedTarget F × ℕ)} {created : List (ℕ × ℕ)}

omit [KotlinFloat F] in
theorem Added.lt_counter (h : Added m now incoming dets created t) {q : ℕ × ℕ}
    (hq : q ∈ created) : m.nextVisualIdCounter ≤ q.1 ∧ q.1 < t.nextVisualIdCounter := by
  have hmem : q.1 ∈ created.map Prod.fst := List.mem_map_of_mem hq
  rw [h.values, List.mem_range'_1] at hmem
  rwa [h.counter]

omit [KotlinFloat F] in
theorem Added.step (h : Added m now incoming dets created t) {det : DetectedTarget F} {idx : ℕ}
    (hdet : incoming[idx]? = some det) : ∃ created,
      Added m now incoming (dets ++ [(det, idx)]) created (addUnmatched now t (det, idx)) := by
  by_cases hclaimed : idx ∈ m.claimedDetIdxs
  · refine ⟨created, ?_⟩
    rw [addUnmatched, if_pos (by rwa [h.claimed])]
    exact { h with detIdxs := by simp [h.detIdxs, hclaimed] }
  · refine ⟨created ++ [(t.nextVisualIdCounter, idx)], ?_⟩
    rw [addUnmatched, if_neg (by rwa [h.claimed])]
    exact
      { values := by
          rw [List.map_append, h.values, List.length_append, List.length_singleton,
            List.range'_1_concat, h.counter, List.map_singleton]
        detIdxs := by simp [h.detIdxs, hclaimed]
        claimed := h.claimed
        absorbed := by rw [h.absorbed]; simp
        counter := by simp [h.counter, Nat.add_assoc]
        old := by
          intro id hid
          have hnew : id ≠ visualId t.nextVisualIdCounter := fun heq =>
            hid (t.nextVisualIdCounter, idx) (by simp) heq.symm
          rw [LinkedMap.get?_put, if_neg hnew]
          exact h.old id fun q hq => hid q (List.mem_append_left _ hq)
        new := by
          intro q hq
          rcases List.mem_append.mp hq with hq | hq
          · -- the counter has moved on since
            have hne : visualId q.1 ≠ visualId t.nextVisualIdCounter := fun heq =>
              absurd (visualId_injective heq) (by have := (h.lt_counter hq).2; omega)
            rw [LinkedMap.get?_put, if_neg hne]
            exact h.new q hq
          · rw [List.mem_singleton.mp hq]
            exact ⟨det, hdet, by rw [LinkedMap.get?_put, if_pos rfl]⟩ }

omit [KotlinFloat F] in
theorem added_foldl (m : CallState F) (now : ℤ) (incoming : List (DetectedTarget F)) :
    ∃ created, Added m now incoming incoming.zipIdx created
      (incoming.zipIdx.foldl (addUnmatched now) m) := by
  have hget : ∀ d ∈ incoming.zipIdx, incoming[d.2]? = some d.1 := fun d hd =>
    List.mk_mem_zipIdx_iff_getElem?.mp hd
  generalize incoming.zipIdx = dets at hget
  induction dets using List.reverseRecOn with
  | nil =>
    exact ⟨[], rfl, rfl, rfl, by simp, rfl, fun _ _ => rfl, fun q hq => by cases hq⟩
  | append_singleton dets d ih =>
    rw [List.foldl_concat]
    obtain ⟨created, hadded⟩ := ih fun d hd => hget d (List.mem_append_left _ hd)
    exact hadded.step (hget d (by simp))

/-- What the loop over the detections does in a call. -/
theorem exists_added (s : TrackerSession F) (now : ℤ) (incoming : List (DetectedTarget F)) :
    ∃ created, Added (s.matching now incoming) now incoming incoming.zipIdx created
      (s.updated now incoming) :=
  added_foldl _ now incoming

/-! ## One call -/

theorem Claimed.lt_length (h : Claimed s now incoming l m) {idx : ℕ}
    (hidx : idx ∈ m.claimedDetIdxs) : idx < incoming.length := by
  rw [h.detIdxs] at hidx
  obtain ⟨p, hp, rfl⟩ := List.mem_map.mp hidx
  obtain ⟨-, det, -, hdet, -⟩ := h.matched p hp
  exact (List.getElem?_eq_some_iff.mp hdet).1

theorem absorbed_perm (hm : Claimed s now incoming l m)
    (ht : Added m now incoming incoming.zipIdx created t) :
    (t.absorbed.map Prod.snd).Perm (List.range incoming.length) := by
  have hindex : incoming.zipIdx.map Prod.snd = List.range incoming.length := by
    rw [List.zipIdx_map_snd, List.range_eq_range']
  have hsplit : t.absorbed.map Prod.snd = m.claimedDetIdxs ++
      (List.range incoming.length).filter (· ∉ m.claimedDetIdxs) := by
    rw [ht.absorbed, List.map_append, List.map_map, hm.detIdxs, ← hindex, ← hm.detIdxs,
      ← ht.detIdxs]
    rfl
  have hclaimed : m.claimedDetIdxs.Nodup := hm.detIdxs ▸ hm.nodup.2
  rw [hsplit]
  refine (List.perm_ext_iff_of_nodup ?_ List.nodup_range).mpr fun idx => ?_
  · refine List.Nodup.append hclaimed (List.nodup_range.filter _) fun idx hin hout => ?_
    exact absurd hin (by simpa using (List.mem_filter.mp hout).2)
  · rw [List.mem_append, List.mem_filter]
    constructor
    · rintro (hin | ⟨hin, -⟩)
      · exact List.mem_range.mpr (hm.lt_length hin)
      · exact hin
    · intro hin
      by_cases hidx : idx ∈ m.claimedDetIdxs
      · exact Or.inl hidx
      · exact Or.inr ⟨hin, by simpa using hidx⟩

theorem Fresh.absorbed_nodup (hs : s.Fresh) (hm : Claimed s now incoming l m)
    (ht : Added m now incoming dets created t) : (t.absorbed.map Prod.fst).Nodup := by
  have hids : (created.map fun q => (visualId q.1, q.2)).map Prod.fst =
      (List.range' m.nextVisualIdCounter created.length).map visualId := by
    rw [← ht.values, List.map_map, List.map_map]
    rfl
  rw [ht.absorbed, List.map_append, hids]
  refine List.Nodup.append hm.nodup.1 (List.Nodup.map visualId_injective (List.nodup_range' 1)) ?_
  rintro id hold hnew
  obtain ⟨p, hp, rfl⟩ := List.mem_map.mp hold
  obtain ⟨n, hn, heq⟩ := List.mem_map.mp hnew
  obtain ⟨track, det, hget, -⟩ := hm.matched p hp
  rw [List.mem_range'_1, hm.counter] at hn
  rw [← heq, hs n hn.1] at hget
  cases hget

/-- A target after both loops: matched, new, or as it was. -/
inductive Origin (s : TrackerSession F) (now : ℤ) (incoming : List (DetectedTarget F))
    (absorbed : List (String × ℕ)) (id : String) (track : TrackedTarget F) : Prop where
  | matched (idx : ℕ) (det : DetectedTarget F) (old : TrackedTarget F) :
      (id, idx) ∈ absorbed → incoming[idx]? = some det →
      s.trackedTargets.get? id = some old → track = old.refresh det now →
      Origin s now incoming absorbed id track
  | new (idx n : ℕ) (det : DetectedTarget F) :
      (id, idx) ∈ absorbed → incoming[idx]? = some det → s.nextVisualIdCounter ≤ n →
      id = visualId n → track = det.track n now → Origin s now incoming absorbed id track
  | kept : id ∉ absorbed.map Prod.fst → s.trackedTargets.get? id = some track →
      Origin s now incoming absorbed id track

theorem Added.get?_of_not_mem (hm : Claimed s now incoming l m)
    (ht : Added m now incoming dets created t) (hid : id ∉ t.absorbed.map Prod.fst) :
    t.trackedTargets.get? id = s.trackedTargets.get? id := by
  rw [ht.absorbed, List.map_append, List.mem_append, not_or] at hid
  have hnew : ∀ q ∈ created, visualId q.1 ≠ id := fun q hq heq =>
    hid.2 (heq ▸ List.mem_map_of_mem (List.mem_map_of_mem hq))
  rw [ht.old id hnew, hm.unmatched id (hm.trackIds ▸ hid.1)]

/-- What absorbed a detection is there, with the time of the call. -/
theorem Fresh.get?_of_absorbed (hs : s.Fresh) (hm : Claimed s now incoming l m)
    (ht : Added m now incoming dets created t) {p : String × ℕ} (hp : p ∈ t.absorbed) :
    ∃ track, t.trackedTargets.get? p.1 = some track ∧ track.lastSeenAt = now ∧
      Origin s now incoming t.absorbed p.1 track := by
  have hmem := hp
  rw [ht.absorbed] at hp
  rcases List.mem_append.mp hp with hold | hnew
  · obtain ⟨old, det, hget, hdet, hrefreshed⟩ := hm.matched p hold
    -- the key is in the map, so the counter does not give it
    have hne : ∀ q ∈ created, visualId q.1 ≠ p.1 := by
      intro q hq heq
      have hnone := hs q.1 (hm.counter ▸ (ht.lt_counter hq).1)
      rw [heq, hget] at hnone
      cases hnone
    exact ⟨old.refresh det now, by rw [ht.old _ hne, hrefreshed], rfl,
      .matched p.2 det old hmem hdet hget rfl⟩
  · obtain ⟨q, hq, rfl⟩ := List.mem_map.mp hnew
    obtain ⟨det, hdet, hget⟩ := ht.new q hq
    exact ⟨det.track q.1 now, hget, rfl,
      .new q.2 q.1 det hmem hdet (hm.counter ▸ (ht.lt_counter hq).1) rfl rfl⟩

theorem Fresh.origin (hs : s.Fresh) (hm : Claimed s now incoming l m)
    (ht : Added m now incoming dets created t) {track : TrackedTarget F}
    (hget : t.trackedTargets.get? id = some track) : Origin s now incoming t.absorbed id track := by
  by_cases hid : id ∈ t.absorbed.map Prod.fst
  · obtain ⟨p, hp, rfl⟩ := List.mem_map.mp hid
    obtain ⟨found, hfound, -, horigin⟩ := hs.get?_of_absorbed hm ht hp
    rw [hget, Option.some.injEq] at hfound
    exact hfound ▸ horigin
  · exact .kept hid (by rw [← ht.get?_of_not_mem hm hid, hget])

theorem Keyed.get?_updated_of_not_mem (hs : s.Keyed)
    (hid : id ∉ (s.updated now incoming).absorbed.map Prod.fst) :
    (s.updated now incoming).trackedTargets.get? id = s.trackedTargets.get? id := by
  obtain ⟨created, hadded⟩ := s.exists_added now incoming
  exact hadded.get?_of_not_mem (hs.matching now incoming) hid

theorem Keyed.updated_origin (hs : s.Keyed) (hfresh : s.Fresh) {track : TrackedTarget F}
    (hget : (s.updated now incoming).trackedTargets.get? id = some track) :
    Origin s now incoming (s.updated now incoming).absorbed id track := by
  obtain ⟨created, hadded⟩ := s.exists_added now incoming
  exact hfresh.origin (hs.matching now incoming) hadded hget

theorem Origin.visualId_eq (hs : s.Keyed) {absorbed : List (String × ℕ)}
    {track : TrackedTarget F} (h : Origin s now incoming absorbed id track) :
    track.visualId = id := by
  cases h with
  | matched idx det old _ _ hold heq =>
    rw [heq]
    exact hs id old hold
  | new idx n det _ _ _ hid heq => rw [heq, hid]; rfl
  | kept _ hold => exact hs id track hold

/-! ## What a call keeps -/

/-- The keys that stay are those whose target has not timed out. -/
theorem get?_matchAndSmooth (s : TrackerSession F) (now : ℤ) (incoming : List (DetectedTarget F))
    (id : String) : (s.matchAndSmooth now incoming).1.trackedTargets.get? id =
      ((s.updated now incoming).trackedTargets.get? id).filter
        fun track => !decide (track.TimedOut now) := by
  rw [matchAndSmooth, toRemove]
  dsimp only
  rw [LinkedMap.removeAll_keys_filterValues, LinkedMap.get?_filterValues]

theorem mem_result_iff {r : DetectedTarget F} : r ∈ (s.matchAndSmooth now incoming).2 ↔
    ∃ id track, (s.matchAndSmooth now incoming).1.trackedTargets.get? id = some track ∧
      track.toDetected now = r := by
  rw [matchAndSmooth, List.mem_map]
  simp only [LinkedMap.mem_values_iff]
  constructor
  · rintro ⟨track, ⟨id, hget⟩, heq⟩
    exact ⟨id, track, hget, heq⟩
  · rintro ⟨id, track, hget, heq⟩
    exact ⟨track, ⟨id, hget⟩, heq⟩

theorem Keyed.after (hs : s.Keyed) (hfresh : s.Fresh) (now : ℤ)
    (incoming : List (DetectedTarget F)) : (s.matchAndSmooth now incoming).1.Keyed := by
  intro id track hget
  rw [get?_matchAndSmooth, Option.filter_eq_some_iff] at hget
  exact (hs.updated_origin hfresh hget.1).visualId_eq hs

theorem Keyed.counter_le (hs : s.Keyed) (now : ℤ) (incoming : List (DetectedTarget F)) :
    s.nextVisualIdCounter ≤ (s.updated now incoming).nextVisualIdCounter := by
  obtain ⟨created, hadded⟩ := s.exists_added now incoming
  rw [hadded.counter, (hs.matching now incoming).counter]
  exact Nat.le_add_right _ _

theorem Fresh.updated (hfresh : s.Fresh) (hs : s.Keyed) (now : ℤ)
    (incoming : List (DetectedTarget F)) : Fresh (s.updated now incoming).toTrackerSession := by
  intro n hn
  obtain ⟨created, hadded⟩ := s.exists_added now incoming
  have hnew : ∀ q ∈ created, visualId q.1 ≠ visualId n := fun q hq heq =>
    absurd (visualId_injective heq) (Nat.ne_of_lt (Nat.lt_of_lt_of_le (hadded.lt_counter hq).2 hn))
  have hnone := hfresh n (Nat.le_trans (hs.counter_le now incoming) hn)
  have hmatching : (s.matching now incoming).trackedTargets.get? (visualId n) = none := by
    rwa [LinkedMap.get?_eq_none_iff, (hs.matching now incoming).keys,
      ← LinkedMap.get?_eq_none_iff]
  rw [hadded.old _ hnew, hmatching]

theorem Fresh.after (hfresh : s.Fresh) (hs : s.Keyed) (now : ℤ)
    (incoming : List (DetectedTarget F)) : (s.matchAndSmooth now incoming).1.Fresh := by
  intro n hn
  rw [get?_matchAndSmooth, hfresh.updated hs now incoming n hn]
  rfl

/-- What a call does to the detections, to the targets and to the result. -/
structure Bookkept (s : TrackerSession F) (now : ℤ) (incoming : List (DetectedTarget F))
    (absorbed : List (String × ℕ)) (t : TrackerSession F) (result : List (DetectedTarget F)) :
    Prop where
  detections : (absorbed.map Prod.snd).Perm (List.range incoming.length)
  targets : (absorbed.map Prod.fst).Nodup
  seen : ∀ p ∈ absorbed, ∃ track, t.trackedTargets.get? p.1 = some track ∧
    Origin s now incoming absorbed p.1 track ∧ track.lastSeenAt = now ∧
    track.toDetected now ∈ result
  unmatched : ∀ id track, s.trackedTargets.get? id = some track → id ∉ absorbed.map Prod.fst →
    (now - track.lastSeenAt ≤ trackedTargetTimeoutMs →
      t.trackedTargets.get? id = some track ∧ track.toDetected now ∈ result) ∧
    (¬ now - track.lastSeenAt ≤ trackedTargetTimeoutMs →
      t.trackedTargets.get? id = none ∧ id ∉ result.map (·.id))
  ids : (result.map (·.id)).Nodup
  keyed : t.Keyed

theorem Keyed.bookkept (hs : s.Keyed) (hfresh : s.Fresh) (now : ℤ)
    (incoming : List (DetectedTarget F)) :
    Bookkept s now incoming (s.updated now incoming).absorbed (s.matchAndSmooth now incoming).1
      (s.matchAndSmooth now incoming).2 := by
  have hm := hs.matching now incoming
  obtain ⟨created, hadded⟩ := s.exists_added now incoming
  have hkeyed := hs.after hfresh now incoming
  have hids : (s.matchAndSmooth now incoming).2.map (·.id) =
      (s.matchAndSmooth now incoming).1.trackedTargets.keys := by
    rw [← hkeyed.map_values, matchAndSmooth, List.map_map]
    rfl
  refine ⟨absorbed_perm hm hadded, hfresh.absorbed_nodup hm hadded, ?_, ?_, ?_, hkeyed⟩
  · intro p hp
    obtain ⟨track, hget, hseen, horigin⟩ := hfresh.get?_of_absorbed hm hadded hp
    have hlive : ¬ track.TimedOut now := by
      rw [TrackedTarget.TimedOut, hseen, Int.sub_self]
      decide
    have hstays : (s.matchAndSmooth now incoming).1.trackedTargets.get? p.1 = some track := by
      rw [get?_matchAndSmooth, hget, Option.filter_some]
      simp [hlive]
    exact ⟨track, hstays, horigin, hseen, mem_result_iff.mpr ⟨p.1, track, hstays, rfl⟩⟩
  · intro id track hget hid
    have hupdated : (s.updated now incoming).trackedTargets.get? id = some track :=
      (hs.get?_updated_of_not_mem hid).trans hget
    constructor
    · intro hle
      have hlive : ¬ track.TimedOut now := Int.not_lt.mpr hle
      have hstays : (s.matchAndSmooth now incoming).1.trackedTargets.get? id = some track := by
        rw [get?_matchAndSmooth, hupdated, Option.filter_some]
        simp [hlive]
      exact ⟨hstays, mem_result_iff.mpr ⟨id, track, hstays, rfl⟩⟩
    · intro hover
      have htimedOut : track.TimedOut now := Int.not_le.mp hover
      have hgone : (s.matchAndSmooth now incoming).1.trackedTargets.get? id = none := by
        rw [get?_matchAndSmooth, hupdated, Option.filter_some]
        simp [htimedOut]
      exact ⟨hgone, by rw [hids]; exact LinkedMap.get?_eq_none_iff.mp hgone⟩
  · rw [hids]
    exact LinkedMap.keys_nodup _

/-! ## The tracker without keys -/

def toTracker (s : TrackerSession F) : Tracker F := ⟨s.trackedTargets.values, s.nextVisualIdCounter⟩

/-- A call on the map and a call on its values have come to the same point. -/
structure Simulates (m : CallState F) (n : Matching F) : Prop where
  keyed : m.trackedTargets.KeyedBy (·.visualId)
  values : m.trackedTargets.values = n.trackedTargets
  trackIds : m.claimedTrackIds = n.claimedTrackIds
  detIdxs : m.claimedDetIdxs = n.claimedDetIdxs

theorem Simulates.claim {n : Matching F} (h : Simulates m n) (c : Candidate F) :
    Simulates (claim now incoming m c) (Tracker.claim now incoming n c) := by
  rw [TrackerSession.claim, Tracker.claim, h.trackIds, h.detIdxs, h.keyed.get?_eq, h.values]
  split_ifs with hclaimed
  · exact h
  · cases n.trackedTargets.find? (·.visualId = c.trackId) with
    | none => exact h
    | some track =>
      cases incoming[c.detIdx]? with
      | none => exact h
      | some det =>
        exact
          { keyed := h.keyed.modify fun _ => rfl
            values := by rw [h.keyed.values_modify, h.values]
            trackIds := rfl
            detIdxs := rfl }

theorem Keyed.simulates (h : s.Keyed) (now : ℤ) (incoming : List (DetectedTarget F)) :
    Simulates (s.matching now incoming) (s.toTracker.matching now incoming) := by
  unfold TrackerSession.matching Tracker.matching
  have hstart : Simulates ⟨s, [], [], []⟩ ⟨s.trackedTargets.values, [], []⟩ := ⟨h, rfl, rfl, rfl⟩
  exact List.foldl_rel hstart fun c _ m n h => h.claim c

structure Follows (claimedDetIdxs : List ℕ) (m : CallState F) (n : Tracker F) : Prop where
  keyed : m.trackedTargets.KeyedBy (·.visualId)
  detIdxs : m.claimedDetIdxs = claimedDetIdxs
  tracker : m.toTracker = n

omit [KotlinFloat F] in
theorem Follows.addUnmatched {claimed : List ℕ} {n : Tracker F} (h : Follows claimed m n)
    (det : DetectedTarget F × ℕ) :
    Follows claimed (addUnmatched now m det) (Tracker.addUnmatched now claimed n det) := by
  obtain ⟨hkeyed, rfl, rfl⟩ := h
  rw [TrackerSession.addUnmatched, Tracker.addUnmatched]
  split_ifs with hclaimed
  · exact ⟨hkeyed, rfl, rfl⟩
  · refine ⟨hkeyed.put rfl, rfl, ?_⟩
    rw [toTracker, hkeyed.values_put]
    rfl

/-- The map and its values go through a call alike. -/
theorem Keyed.matchAndSmooth_toTracker (h : s.Keyed) (now : ℤ)
    (incoming : List (DetectedTarget F)) :
    ((s.matchAndSmooth now incoming).1.toTracker, (s.matchAndSmooth now incoming).2) =
      s.toTracker.matchAndSmooth now incoming := by
  have hmatching := h.simulates now incoming
  have hstart : Follows (s.toTracker.matching now incoming).claimedDetIdxs
      (s.matching now incoming)
      ⟨(s.toTracker.matching now incoming).trackedTargets, s.nextVisualIdCounter⟩ :=
    { keyed := hmatching.keyed
      detIdxs := hmatching.detIdxs
      tracker := by rw [toTracker, hmatching.values, (h.matching now incoming).counter] }
  have hupdated : Follows _ (s.updated now incoming) (s.toTracker.updated now incoming) :=
    List.foldl_rel hstart fun det _ m n h => h.addUnmatched det
  rw [Tracker.matchAndSmooth, ← hupdated.tracker, matchAndSmooth, toRemove,
    LinkedMap.removeAll_keys_filterValues]
  simp only [toTracker, LinkedMap.values_filterValues, decide_not]

end TrackerSession

/-! ## Calls in a row -/

/-- The session with a record of the keys that its calls removed. -/
structure Bookkeeping (F : Type*) where
  session : TrackerSession F
  removed : List String

namespace Bookkeeping

def start : Bookkeeping F := ⟨TrackerSession.init, []⟩

def after (s : Bookkeeping F) (c : TrackerCall F) : Bookkeeping F where
  session := (s.session.matchAndSmooth c.now c.incoming).1
  removed := s.removed ++ s.session.toRemove c.now c.incoming

/-- A call of `matchAndSmooth`, at any time. -/
def Step (s : Bookkeeping F) (c : TrackerCall F) (t : Bookkeeping F) : Prop := t = s.after c

/-- The keys that were removed have been given before and are gone. -/
structure Kept (s : Bookkeeping F) : Prop where
  keyed : s.session.Keyed
  fresh : s.session.Fresh
  removed : ∀ id ∈ s.removed, s.session.trackedTargets.get? id = none ∧
    ∀ n ≥ s.session.nextVisualIdCounter, id ≠ visualId n

variable {s : Bookkeeping F} {now : ℤ} {incoming : List (DetectedTarget F)}

theorem Kept.not_absorbed (hs : s.Kept) {id : String} (hid : id ∈ s.removed) :
    id ∉ (s.session.updated now incoming).absorbed.map Prod.fst := by
  intro hmem
  obtain ⟨p, hp, rfl⟩ := List.mem_map.mp hmem
  obtain ⟨hnone, hold⟩ := hs.removed _ hid
  obtain ⟨track, -, horigin, -⟩ := (hs.keyed.bookkept hs.fresh now incoming).seen p hp
  cases horigin with
  | matched _ _ _ _ _ hget _ =>
    rw [hnone] at hget
    cases hget
  | new _ n _ _ _ hn heq _ => exact hold n hn heq
  | kept hnot _ => exact hnot hmem

theorem Kept.after (hs : s.Kept) (c : TrackerCall F) : (s.after c).Kept where
  keyed := hs.keyed.after hs.fresh c.now c.incoming
  fresh := hs.fresh.after hs.keyed c.now c.incoming
  removed := by
    obtain ⟨now, incoming⟩ := c
    have hfresh := hs.fresh.updated hs.keyed now incoming
    intro id hid
    rcases List.mem_append.mp hid with hid | hid
    · obtain ⟨hnone, hold⟩ := hs.removed id hid
      have hgone : (s.session.updated now incoming).trackedTargets.get? id = none :=
        (hs.keyed.get?_updated_of_not_mem (hs.not_absorbed hid)).trans hnone
      refine ⟨?_, fun n hn => hold n (Nat.le_trans (hs.keyed.counter_le now incoming) hn)⟩
      rw [Bookkeeping.after, TrackerSession.get?_matchAndSmooth, hgone]
      rfl
    · obtain ⟨track, hget⟩ := LinkedMap.mem_keys_iff.mp hid
      rw [LinkedMap.get?_filterValues, Option.filter_eq_some_iff] at hget
      obtain ⟨hget, hover⟩ := hget
      refine ⟨?_, fun n hn heq => ?_⟩
      · rw [Bookkeeping.after, TrackerSession.get?_matchAndSmooth, hget, Option.filter_some]
        simpa using hover
      · -- the key was there until now, so the counter is past it
        rw [heq, hfresh n hn] at hget
        cases hget

omit [KotlinFloat F] in
theorem start_kept : (start : Bookkeeping F).Kept where
  keyed := fun id track hget => by cases hget
  fresh := fun n _ => rfl
  removed := fun id hid => by cases hid

/-- Every call of a session keeps the books, and no key that was removed is given again. -/
theorem session_bookkept {calls : List (TrackerCall F)} (h : Run Step start calls s) (now : ℤ)
    (incoming : List (DetectedTarget F)) :
    s.session.Bookkept now incoming (s.session.updated now incoming).absorbed
      (s.session.matchAndSmooth now incoming).1 (s.session.matchAndSmooth now incoming).2 ∧
    ∀ id ∈ s.removed, id ∉ (s.session.updated now incoming).absorbed.map Prod.fst := by
  have hkept : s.Kept := h.invariant start_kept (by
    rintro s c t hs rfl
    exact hs.after c)
  exact ⟨hkept.keyed.bookkept hkept.fresh now incoming, fun id hid => hkept.not_absorbed hid⟩

/-- A target that is removed by the second call, and its successor. -/
theorem session_bookkept_someone : ∃ s : Bookkeeping ℚ,
    Run Step start [⟨1000, [Tracking.someone]⟩, ⟨61000, []⟩] s ∧ s.removed = ["T1"] ∧
    (s.session.updated 61100 [Tracking.someone]).absorbed = [("T2", 0)] ∧
    s.session.Bookkept 61100 [Tracking.someone]
      (s.session.updated 61100 [Tracking.someone]).absorbed
      (s.session.matchAndSmooth 61100 [Tracking.someone]).1
      (s.session.matchAndSmooth 61100 [Tracking.someone]).2 ∧
    ∀ id ∈ s.removed,
      id ∉ (s.session.updated 61100 [Tracking.someone]).absorbed.map Prod.fst := by
  have hrun : Run Step (start : Bookkeeping ℚ) [⟨1000, [Tracking.someone]⟩, ⟨61000, []⟩]
      ((start.after _).after _) := (Run.single rfl).append (Run.single rfl)
  exact ⟨_, hrun, by decide +kernel, by decide +kernel,
    session_bookkept hrun 61100 [Tracking.someone]⟩

end Bookkeeping

end SnipeIt.Phone
