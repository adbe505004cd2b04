import Mathlib.Data.Finset.Basic
import Mathlib.Data.Finset.Option
import SnipeIt.Support.Run

/-! # The locked target (`TacticalVideoPlayer.kt`, `DashboardScreen.kt`)

The video player remembers which target is locked, the view model which one is
selected, and the commands go to the Pi. A handler acts on what the screen showed
when it was drawn last, and on the state as it is now.
-/

namespace SnipeIt.Phone
open Support

structure LockCommand where
  targetId : String
  isLocking : Bool
deriving DecidableEq

structure DrawnScreen where
  detectedTargets : List String
  lockedTargetId : Option String
  selectedTargetId : Option String

/-- The ids of the targets, the two ids that the screen remembers, and a record of the commands. -/
structure LockScreen where
  detectedTargets : List String
  lockedTargetId : Option String
  selectedTargetId : Option String
  drawn : DrawnScreen
  sent : List LockCommand

inductive LockEvent where
  /-- The LOCK or UNLOCK button of a marker. -/
  | lockClick (id : String)
  /-- The body of a marker. -/
  | targetClick (id : String)
  /-- UNLOCK in the sensor strip. -/
  | unlock
  | targets (ids : List String)
  | draw

def lockedAfter (sent : List LockCommand) : Finset String :=
  sent.foldl (fun locked c =>
    if c.isLocking then insert c.targetId locked else locked.erase c.targetId) ∅

/-- Every unlock finds its target locked. -/
def UnlocksLocked (sent : List LockCommand) : Prop :=
  ∀ before id, before ++ [⟨id, false⟩] <+: sent → id ∈ lockedAfter before

@[simp] theorem lockedAfter_lock (sent : List LockCommand) (id : String) :
    lockedAfter (sent ++ [⟨id, true⟩]) = insert id (lockedAfter sent) := by
  simp [lockedAfter]

@[simp] theorem lockedAfter_unlock (sent : List LockCommand) (id : String) :
    lockedAfter (sent ++ [⟨id, false⟩]) = (lockedAfter sent).erase id := by
  simp [lockedAfter]

theorem unlocksLocked_concat {sent : List LockCommand} {c : LockCommand} :
    UnlocksLocked (sent ++ [c]) ↔
      UnlocksLocked sent ∧ (c.isLocking = false → c.targetId ∈ lockedAfter sent) := by
  constructor
  · intro h
    refine ⟨fun before id hb => h before id (hb.trans (List.prefix_append _ _)), fun hc => ?_⟩
    refine h sent c.targetId ?_
    rw [← hc]
  · rintro ⟨hsent, hc⟩ before id hb
    rcases List.prefix_concat_iff.mp hb with heq | hb
    · obtain ⟨rfl, hlast⟩ := List.append_inj' heq rfl
      obtain rfl := List.singleton_inj.mp hlast
      exact hc rfl
    · exact hsent before id hb

namespace LockScreen

def opened (detectedTargets : List String) (selectedTargetId : Option String) : LockScreen where
  detectedTargets := detectedTargets
  lockedTargetId := none
  selectedTargetId := selectedTargetId
  drawn := ⟨detectedTargets, none, selectedTargetId⟩
  sent := []

def onTargetSelect (s : LockScreen) (id : String) : LockScreen :=
  { s with selectedTargetId := if id.isEmpty then none else some id }

def onTargetLockToggle (s : LockScreen) (id : String) (isLocking : Bool) : LockScreen :=
  { s with sent := s.sent ++ [⟨id, isLocking⟩] }

def onLockClick (s : LockScreen) (id : String) : LockScreen :=
  if s.drawn.lockedTargetId = some id then
    (onTargetSelect { s with lockedTargetId := none } "").onTargetLockToggle id false
  else
    let unlocked := match s.lockedTargetId with
      | some prevTargetId => s.onTargetLockToggle prevTargetId false
      | none => s
    (onTargetSelect { unlocked with lockedTargetId := some id } id).onTargetLockToggle id true

def onTargetClick (s : LockScreen) (id : String) : LockScreen :=
  if s.drawn.lockedTargetId = some id then
    if s.drawn.selectedTargetId = some id then s.onTargetSelect "" else s.onTargetSelect id
  else s

def lockedTarget (s : LockScreen) : Option String :=
  s.drawn.detectedTargets.find? fun id => some id = s.drawn.selectedTargetId

/-- `onUnlock` of the strip, where a click does nothing unless `hasLockedTarget`. -/
def onUnlock (s : LockScreen) : LockScreen :=
  match s.lockedTarget with
  | some id => (s.onTargetLockToggle id false).onTargetSelect ""
  | none => s

/-- A marker can be clicked when its target is drawn. -/
def apply (s : LockScreen) : LockEvent → Option LockScreen
  | .lockClick id => if id ∈ s.drawn.detectedTargets then some (s.onLockClick id) else none
  | .targetClick id => if id ∈ s.drawn.detectedTargets then some (s.onTargetClick id) else none
  | .unlock => some s.onUnlock
  | .targets ids => some { s with detectedTargets := ids }
  | .draw => some { s with drawn := ⟨s.detectedTargets, s.lockedTargetId, s.selectedTargetId⟩ }

def Step (s : LockScreen) (e : LockEvent) (t : LockScreen) : Prop := s.apply e = some t

/-- What the Pi has been told is what the player shows as locked. -/
def Mirrors (s : LockScreen) : Prop :=
  lockedAfter s.sent = s.lockedTargetId.toFinset ∧ UnlocksLocked s.sent

/-- The strip's UNLOCK is not clicked while it is enabled, and a marker that was drawn as locked
still is when its button is clicked. -/
def Fits (s : LockScreen) : LockEvent → Prop
  | .unlock => s.lockedTarget = none
  | .lockClick id => s.drawn.lockedTargetId = some id → s.lockedTargetId = some id
  | _ => True

variable {s t : LockScreen} {e : LockEvent} {id : String}

theorem mirrors_unlock_iff (hs : s.Mirrors) :
    UnlocksLocked (s.sent ++ [⟨id, false⟩]) ↔ s.lockedTargetId = some id := by
  rw [unlocksLocked_concat, and_iff_right hs.2, hs.1]
  simp

theorem Mirrors.lockClick_iff (hs : s.Mirrors) :
    (s.onLockClick id).Mirrors ↔ s.Fits (.lockClick id) := by
  rw [onLockClick, Fits]
  by_cases hlocked : s.drawn.lockedTargetId = some id
  · rw [if_pos hlocked]
    constructor
    · exact fun h _ => (mirrors_unlock_iff hs).mp h.2
    · intro hfits
      refine ⟨?_, (mirrors_unlock_iff hs).mpr (hfits hlocked)⟩
      change lockedAfter (s.sent ++ [⟨id, false⟩]) = ∅
      rw [lockedAfter_unlock, hs.1, hfits hlocked]
      simp
  · rw [if_neg hlocked]
    refine iff_of_true ?_ fun h => absurd h hlocked
    cases hprev : s.lockedTargetId with
    | none =>
      have hempty : lockedAfter s.sent = ∅ := by rw [hs.1, hprev]; rfl
      refine ⟨?_, unlocksLocked_concat.mpr ⟨hs.2, fun h => by cases h⟩⟩
      change lockedAfter (s.sent ++ [⟨id, true⟩]) = {id}
      rw [lockedAfter_lock, hempty]
      rfl
    | some prev =>
      have honly : lockedAfter s.sent = {prev} := by rw [hs.1, hprev]; rfl
      refine ⟨?_, unlocksLocked_concat.mpr ⟨(mirrors_unlock_iff hs).mpr hprev, fun h => by cases h⟩⟩
      change lockedAfter (s.sent ++ [⟨prev, false⟩] ++ [⟨id, true⟩]) = {id}
      rw [lockedAfter_lock, lockedAfter_unlock, honly]
      simp

/-- The strip unlocks the selected target behind the player's back. -/
theorem Mirrors.unlock_iff (hs : s.Mirrors) : s.onUnlock.Mirrors ↔ s.Fits .unlock := by
  rw [onUnlock, Fits]
  cases htarget : s.lockedTarget with
  | none => exact iff_of_true hs rfl
  | some id =>
    refine iff_of_false (fun h => ?_) (Option.some_ne_none id)
    have hlocked : s.lockedTargetId = some id := (mirrors_unlock_iff hs).mp h.2
    have hreplay : lockedAfter (s.sent ++ [⟨id, false⟩]) = s.lockedTargetId.toFinset := h.1
    rw [lockedAfter_unlock, hs.1, hlocked] at hreplay
    simp at hreplay

theorem onTargetClick_mirrors (hs : s.Mirrors) (id : String) : (s.onTargetClick id).Mirrors := by
  rw [onTargetClick]
  split_ifs
  · exact hs
  · exact hs
  · exact hs

theorem Mirrors.step_iff (hs : s.Mirrors) (hstep : Step s e t) : t.Mirrors ↔ s.Fits e := by
  cases e with
  | lockClick id =>
    rw [Step, apply] at hstep
    split_ifs at hstep
    exact Option.some.inj hstep ▸ hs.lockClick_iff
  | targetClick id =>
    rw [Step, apply] at hstep
    split_ifs at hstep
    exact iff_of_true (Option.some.inj hstep ▸ onTargetClick_mirrors hs id) trivial
  | unlock => exact Option.some.inj hstep ▸ hs.unlock_iff
  | targets ids => exact iff_of_true (Option.some.inj hstep ▸ hs) trivial
  | draw => exact iff_of_true (Option.some.inj hstep ▸ hs) trivial

/-- A screen that shows the locked target as it is. -/
theorem fits_lockClick (hdrawn : s.drawn.lockedTargetId = s.lockedTargetId) (id : String) :
    s.Fits (.lockClick id) :=
  fun h => hdrawn ▸ h

/-- The mirror holds after every event exactly if no event finds the strip's UNLOCK enabled or a
marker out of date. -/
theorem lock_mirrored_iff {targets : List String} {selected : Option String}
    {events : List LockEvent} :
    Run (Into Mirrors Step) (opened targets selected) events t ↔
      Run (Guarded Fits Step) (opened targets selected) events t := by
  have hopened : (opened targets selected).Mirrors :=
    ⟨rfl, fun before id h => absurd (List.prefix_nil.mp h) (by simp)⟩
  refine Run.into_iff_guarded hopened ?_ ?_
  · exact fun s e t hs hstep hfits => ⟨(hs.step_iff hstep).mpr hfits, (hs.step_iff hstep).mpr hfits⟩
  · exact fun s e t hs hstep hfits ht => hfits ((hs.step_iff hstep).mp ht)

/-- A target is locked by its marker and unlocked in the strip; its marker still shows UNLOCK. -/
theorem strip_unlock_unnoticed : ∃ s t : LockScreen,
    Run Step (opened ["T1"] none) [.lockClick "T1", .draw, .unlock, .draw] s ∧
    s.lockedTargetId = some "T1" ∧ lockedAfter s.sent = ∅ ∧ ¬ s.Mirrors ∧
    Step s (.lockClick "T1") t ∧ ¬ UnlocksLocked t.sent := by
  have hrun : (exec apply (opened ["T1"] none)
      [.lockClick "T1", .draw, .unlock, .draw]).isSome := by decide
  obtain ⟨s, hexec⟩ := Option.isSome_iff_exists.mp hrun
  obtain rfl := Option.some.inj hexec
  refine ⟨_, _, Run.of_exec hexec, rfl, by decide, fun h => absurd h.1 (by decide), rfl, ?_⟩
  exact fun h => absurd (unlocksLocked_concat.mp h).2 (by decide)

end LockScreen

end SnipeIt.Phone
