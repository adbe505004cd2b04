import Mathlib.Data.Set.Basic
import SnipeIt.Phone.Tracker
import SnipeIt.Support.Run

/-! # Expired targets

The tracker looks at the timeout after it has matched, so a target whose time is
over can still be given a detection, if it is the first to overlap with it.
-/

namespace SnipeIt.Phone
open Support

variable {F : Type*} [KotlinFloat F]

structure TrackerCall (F : Type*) where
  now : ℤ
  incoming : List (DetectedTarget F)

/-- The tracker with the times at which ids were given to detections. -/
structure Tracking (F : Type*) where
  tracker : Tracker F
  clock : ℤ
  lastMatch : String → Option ℤ
  /-- The ids that were over their timeout at the time of some call. -/
  expired : Set String

namespace Tracking

def start (clock : ℤ) : Tracking F := ⟨Tracker.init, clock, fun _ => none, ∅⟩

/-- The last match of the id is more than the timeout ago. -/
def Stale (s : Tracking F) (now : ℤ) (id : String) : Prop :=
  ∃ time, s.lastMatch id = some time ∧ trackedTargetTimeoutMs < now - time

def after (s : Tracking F) (c : TrackerCall F) : Tracking F where
  tracker := (s.tracker.matchAndSmooth c.now c.incoming).1
  clock := c.now
  lastMatch := fun id =>
    if id ∈ s.tracker.assigned c.now c.incoming then some c.now else s.lastMatch id
  expired := {id | id ∈ s.expired ∨ s.Stale c.now id}

@[simp] theorem after_lastMatch (s : Tracking F) (c : TrackerCall F) (id : String) :
    (s.after c).lastMatch id =
      if id ∈ s.tracker.assigned c.now c.incoming then some c.now else s.lastMatch id := rfl

def Step (s : Tracking F) (c : TrackerCall F) (t : Tracking F) : Prop :=
  s.clock ≤ c.now ∧ t = s.after c

/-- The call gives no id to a detection and returns none that has expired by then. -/
def NotResurrected (s : Tracking F) (c : TrackerCall F) (t : Tracking F) : Prop :=
  ∀ id ∈ t.expired, id ∉ s.tracker.assigned c.now c.incoming ∧
    ∀ target ∈ (s.tracker.matchAndSmooth c.now c.incoming).2, target.id ≠ id

/-- The candidate is of a tracked target whose time is over. -/
def staleCandidate (s : Tracker F) (now : ℤ) (c : Candidate F) : Bool :=
  s.trackedTargets.any fun track => track.visualId = c.trackId ∧ track.TimedOut now

/-- Wherever a detection overlaps with a tracked target whose time is over, the others have taken
the detection before, each with a larger overlap or the same. -/
def LiveFirst (s : Tracking F) (c : TrackerCall F) : Prop :=
  Greedy.Displaced Candidate.clashes (staleCandidate s.tracker c.now)
    (Tracker.sortedCandidates s.tracker.trackedTargets c.incoming)

/-- What the tracker and the record of the matches say about each other. -/
structure Recorded (s : Tracking F) : Prop where
  seen : ∀ track ∈ s.tracker.trackedTargets, s.lastMatch track.visualId = some track.lastSeenAt
  given : ∀ id time, s.lastMatch id = some time →
    ∃ n < s.tracker.nextVisualIdCounter, id = visualId n
  expired : ∀ id ∈ s.expired, s.Stale s.clock id

variable {s t : Tracking F} {c : TrackerCall F} {id : String}

omit [KotlinFloat F] in
theorem Recorded.fresh (hs : s.Recorded) : s.tracker.Fresh := by
  intro n hn track htrack heq
  obtain ⟨m, hm, hid⟩ := hs.given _ _ (hs.seen track htrack)
  have hmn : m = n := visualId_injective (hid.symm.trans heq)
  omega

omit [KotlinFloat F] in
theorem Stale.mono {now later : ℤ} (h : s.Stale now id) (hle : now ≤ later) :
    s.Stale later id := by
  obtain ⟨time, htime, hover⟩ := h
  exact ⟨time, htime, by omega⟩

/-- The ids that have expired are those whose last match is too long ago. -/
theorem Recorded.stale_of_expired (hs : s.Recorded) (hclock : s.clock ≤ c.now)
    (hid : id ∈ (s.after c).expired) : s.Stale c.now id := by
  rcases hid with hid | hid
  · exact (hs.expired id hid).mono hclock
  · exact hid

theorem Recorded.staleCandidate_iff (hs : s.Recorded) {cand : Candidate F}
    (hcand : cand ∈ Tracker.sortedCandidates s.tracker.trackedTargets c.incoming) :
    staleCandidate s.tracker c.now cand = true ↔ s.Stale c.now cand.trackId := by
  simp only [staleCandidate, List.any_eq_true, decide_eq_true_eq]
  constructor
  · rintro ⟨track, htrack, hid, hover⟩
    exact ⟨track.lastSeenAt, hid ▸ hs.seen track htrack, hover⟩
  · rintro ⟨time, htime, hover⟩
    obtain ⟨track, htrack, hid⟩ := List.mem_map.mp (Tracker.candidate_valid hcand).1
    have hseen := hs.seen track htrack
    rw [hid, htime, Option.some.injEq] at hseen
    exact ⟨track, htrack, hid, by rwa [TrackedTarget.TimedOut, ← hseen]⟩

/-- An id is given again after its timeout only by the loop over the candidates. -/
theorem Recorded.assigned_stale (hs : s.Recorded) (hstale : s.Stale c.now id)
    (hid : id ∈ s.tracker.assigned c.now c.incoming) :
    ∃ cand ∈ Greedy.select Candidate.clashes
        (Tracker.sortedCandidates s.tracker.trackedTargets c.incoming),
      staleCandidate s.tracker c.now cand = true := by
  rcases List.mem_append.mp hid with hclaimed | hnew
  · rw [(Tracker.matching_takes s.tracker c.now c.incoming).trackIds] at hclaimed
    obtain ⟨cand, hcand, rfl⟩ := List.mem_map.mp hclaimed
    exact ⟨cand, hcand,
      (hs.staleCandidate_iff (Greedy.mem_of_mem_select _ hcand)).mpr hstale⟩
  · obtain ⟨n, hn, -, rfl⟩ := Tracker.mem_given.mp hnew
    obtain ⟨time, htime, -⟩ := hstale
    obtain ⟨m, hm, heq⟩ := hs.given _ _ htime
    have hnm : n = m := visualId_injective heq
    omega

theorem Recorded.liveFirst_iff (hs : s.Recorded) :
    s.LiveFirst c ↔ ∀ id, s.Stale c.now id → id ∉ s.tracker.assigned c.now c.incoming := by
  rw [LiveFirst, ← Greedy.select_avoids_iff]
  constructor
  · intro havoids id hstale hid
    obtain ⟨cand, hcand, hover⟩ := hs.assigned_stale hstale hid
    exact absurd hover (by simp [havoids cand hcand])
  · intro hnone cand hcand
    rw [Bool.eq_false_iff]
    intro hover
    refine hnone cand.trackId
      ((hs.staleCandidate_iff (Greedy.mem_of_mem_select _ hcand)).mp hover) ?_
    refine List.mem_append_left _ ?_
    rw [(Tracker.matching_takes s.tracker c.now c.incoming).trackIds]
    exact List.mem_map_of_mem hcand

theorem Recorded.given_assigned (hs : s.Recorded)
    (hid : id ∈ s.tracker.assigned c.now c.incoming) :
    ∃ n < (s.after c).tracker.nextVisualIdCounter, id = visualId n := by
  have hle := (hs.fresh.updated c.now c.incoming).1
  rcases List.mem_append.mp hid with hclaimed | hnew
  · rw [(Tracker.matching_takes s.tracker c.now c.incoming).trackIds] at hclaimed
    obtain ⟨cand, hcand, rfl⟩ := List.mem_map.mp hclaimed
    have hvalid := Tracker.candidate_valid (Greedy.mem_of_mem_select _ hcand)
    obtain ⟨track, htrack, hid⟩ := List.mem_map.mp hvalid.1
    obtain ⟨n, hn, heq⟩ := hs.given _ _ (hs.seen track htrack)
    exact ⟨n, Nat.lt_of_lt_of_le hn hle, hid ▸ heq⟩
  · obtain ⟨n, -, hn, hid⟩ := Tracker.mem_given.mp hnew
    exact ⟨n, hn, hid⟩

theorem Recorded.after (hs : s.Recorded) (hclock : s.clock ≤ c.now) (hlive : s.LiveFirst c) :
    (s.after c).Recorded where
  seen := by
    intro track htrack
    have hin : track ∈ (s.tracker.updated c.now c.incoming).trackedTargets :=
      List.mem_of_mem_filter htrack
    -- the targets that got a detection have the time of the call, the others their old one
    rcases hs.fresh.mem_updated hin with ⟨hassigned, hnow⟩ | ⟨hnot, old, hold, heq⟩
    · simp [hassigned, hnow]
    · have hid : old.visualId = track.visualId := congrArg Prod.fst heq
      have hsame : old.lastSeenAt = track.lastSeenAt := congrArg Prod.snd heq
      have hseen := hs.seen old hold
      rw [hid, hsame] at hseen
      simp [hnot, hseen]
  given := by
    intro id time htime
    by_cases hassigned : id ∈ s.tracker.assigned c.now c.incoming
    · exact hs.given_assigned hassigned
    · rw [after_lastMatch, if_neg hassigned] at htime
      obtain ⟨n, hn, heq⟩ := hs.given id time htime
      exact ⟨n, Nat.lt_of_lt_of_le hn (hs.fresh.updated c.now c.incoming).1, heq⟩
  expired := by
    intro id hid
    have hstale := hs.stale_of_expired hclock hid
    obtain ⟨time, htime, hover⟩ := hstale
    have hnot := hs.liveFirst_iff.mp hlive id ⟨time, htime, hover⟩
    exact ⟨time, by rw [after_lastMatch, if_neg hnot, htime], hover⟩

/-- What is returned has a detection, or its time is not over. -/
theorem Recorded.not_stale_of_returned (hs : s.Recorded)
    {target : DetectedTarget F}
    (htarget : target ∈ (s.tracker.matchAndSmooth c.now c.incoming).2)
    (hnot : target.id ∉ s.tracker.assigned c.now c.incoming) : ¬ s.Stale c.now target.id := by
  obtain ⟨track, htrack, rfl⟩ := List.mem_map.mp htarget
  obtain ⟨hin, hlive⟩ := List.mem_filter.mp htrack
  rcases hs.fresh.mem_updated hin with ⟨hassigned, -⟩ | ⟨-, old, hold, heq⟩
  · exact absurd hassigned hnot
  · rintro ⟨time, htime, hover⟩
    have hid : old.visualId = track.visualId := congrArg Prod.fst heq
    have hsame : old.lastSeenAt = track.lastSeenAt := congrArg Prod.snd heq
    have hseen := hs.seen old hold
    rw [hid, hsame, show s.lastMatch track.visualId = some time from htime,
      Option.some.injEq] at hseen
    have hnotover : ¬ track.TimedOut c.now := by simpa using hlive
    exact hnotover (by rwa [TrackedTarget.TimedOut, ← hseen])

theorem Recorded.notResurrected_iff (hs : s.Recorded) (hclock : s.clock ≤ c.now) :
    NotResurrected s c (s.after c) ↔ s.LiveFirst c := by
  rw [hs.liveFirst_iff]
  constructor
  · exact fun h id hstale => (h id (Or.inr hstale)).1
  · intro hnone id hid
    have hstale := hs.stale_of_expired hclock hid
    refine ⟨hnone id hstale, fun target htarget heq => ?_⟩
    subst heq
    exact hs.not_stale_of_returned htarget (hnone _ hstale) hstale

omit [KotlinFloat F] in
theorem start_recorded (clock : ℤ) : (start clock : Tracking F).Recorded where
  seen := fun track htrack => by cases htrack
  given := fun id time htime => by cases htime
  expired := fun id hid => hid.elim

/-- No target comes back after its timeout in a run of calls exactly if in every call the targets
whose time is not over come first. -/
theorem expired_not_resurrected_iff {clock : ℤ} {calls : List (TrackerCall F)} :
    Run (Meeting NotResurrected Step) (start clock) calls t ↔
      Run (Guarded LiveFirst Step) (start clock) calls t := by
  refine Run.meeting_iff_guarded (start_recorded clock) ?_ ?_
  · rintro s c t hs ⟨hclock, rfl⟩ hlive
    exact ⟨hs.after hclock hlive, (hs.notResurrected_iff hclock).mpr hlive⟩
  · rintro s c t hs ⟨hclock, rfl⟩ hlive hok
    exact hlive ((hs.notResurrected_iff hclock).mp hok)

def someone : DetectedTarget ℚ := ⟨"1", "person", 0.9, ⟨100, 100, 50, 120⟩, 0⟩

theorem newcomer_gets_expired_id :
    ∃ s t, Run Step (start 0 : Tracking ℚ) [⟨1000, [someone]⟩] s ∧ Step s ⟨61000, [someone]⟩ t ∧
      s.Stale 61000 "T1" ∧ "T1" ∈ s.tracker.assigned 61000 [someone] ∧
      ¬ NotResurrected s ⟨61000, [someone]⟩ t := by
  have hfirst : Step (start 0 : Tracking ℚ) ⟨1000, [someone]⟩ ((start 0).after _) :=
    ⟨by decide, rfl⟩
  have hlast : ((start 0 : Tracking ℚ).after ⟨1000, [someone]⟩).lastMatch "T1" = some 1000 := by
    decide +kernel
  have hassigned : "T1" ∈ ((start 0 : Tracking ℚ).after ⟨1000, [someone]⟩).tracker.assigned
      61000 [someone] := by decide +kernel
  have hstale : ((start 0 : Tracking ℚ).after ⟨1000, [someone]⟩).Stale 61000 "T1" :=
    ⟨1000, hlast, by decide⟩
  refine ⟨_, _, Run.single hfirst, ⟨by decide, rfl⟩, hstale, hassigned, fun hok => ?_⟩
  exact (hok "T1" (Or.inr hstale)).1 hassigned

end Tracking

end SnipeIt.Phone
