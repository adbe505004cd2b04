import SnipeIt.Phone.Pacer
import SnipeIt.Support.BinaryFloat
import SnipeIt.Support.Run

/-! # The firing solution on the dashboard

`DashboardScreen.kt` shows the shooting solution that came last beside the
target that is selected. The selection is a visual id of the tracker, and the
solution has a target id of its own, which nobody reads.
-/

namespace SnipeIt.Phone
open Support

/-- Kotlin's `Double` with its conversions; no law of them is used. -/
class KotlinDouble (D F : Type*) extends OfScientific D where
  toFloat : D → F
  toLong : D → ℤ

/-- Doubles as rationals; a `Float` has 24 bits of them, and a `Long` the nearest in its range. -/
instance : KotlinDouble ℚ ℚ where
  toFloat := roundBinary 24 (-149)
  toLong q := max (-2 ^ 63) (min (2 ^ 63 - 1) (q.num.tdiv q.den))

variable {D F : Type*}

structure ShootingSolution (D F : Type*) where
  targetId : String
  azimuth : D
  elevation : D
  windageAdjustment : D
  elevationAdjustment : D
  confidence : F
  timestamp : ℤ

/-- A `shooting_solution` message; what is missing or of another type is `none`. -/
structure SolutionMessage (D : Type*) where
  targetId : Option String
  azimuth : Option D
  elevation : Option D
  windageAdjustment : Option D
  elevationAdjustment : Option D
  confidence : Option D
  timestamp : Option D

/-- The branch of `handleWebSocketMessage` for shooting solutions. -/
def SolutionMessage.toSolution [KotlinFloat F] [KotlinDouble D F] (m : SolutionMessage D)
    (now : ℤ) : ShootingSolution D F where
  targetId := m.targetId.getD ""
  azimuth := m.azimuth.getD 0.0
  elevation := m.elevation.getD 0.0
  windageAdjustment := m.windageAdjustment.getD 0.0
  elevationAdjustment := m.elevationAdjustment.getD 0.0
  confidence := (m.confidence.map KotlinDouble.toFloat).getD 0.0
  timestamp := (m.timestamp.map (KotlinDouble.toLong F)).getD now

structure FiringSolutionCard (D F : Type*) where
  targetId : String
  solution : ShootingSolution D F

inductive DashboardOp (D F : Type*) where
  | trySend (batch : DetectionBatch F)
  | stamp
  | receive
  | track
  | emit
  | watch
  | shootingSolution (message : SolutionMessage D)
  | targetSelect (id : String)

structure DashboardAct (D F : Type*) where
  now : ℤ
  op : DashboardOp D F

structure Dashboard (D F : Type*) where
  client : DetectionClient F
  clock : ℤ
  shootingSolution : Option (ShootingSolution D F)
  selectedTargetId : Option String
  /-- The visual ids of the batch that was tracked last, with the Pi's ids of the detections. -/
  frameIds : List (String × String)
  /-- The same when the solution came. -/
  solutionIds : List (String × String)

/-- A target id is the visual id `id`, or the Pi's id of the detection that got it. -/
def Denotes (ids : List (String × String)) (targetId id : String) : Prop :=
  targetId = id ∨ (id, targetId) ∈ ids

instance (ids : List (String × String)) (targetId id : String) :
    Decidable (Denotes ids targetId id) :=
  inferInstanceAs (Decidable (_ ∨ _))

namespace Dashboard

def created (now : ℤ) : Dashboard D F where
  client := DetectionClient.created now
  clock := now
  shootingSolution := none
  selectedTargetId := none
  frameIds := []
  solutionIds := []

def lockedTarget (s : Dashboard D F) : Option (DetectedTarget F) :=
  s.client.detectedTargets.find? fun target => some target.id = s.selectedTargetId

/-- The card is shown when there is a locked target and a solution. -/
def firingSolutionCard (s : Dashboard D F) : Option (FiringSolutionCard D F) :=
  match s.lockedTarget, s.shootingSolution with
  | some target, some solution => some ⟨target.id, solution⟩
  | _, _ => none

/-- The target is on the screen. -/
def Displayed (targets : List (DetectedTarget F)) (id : String) : Prop :=
  ∃ target ∈ targets, target.id = id

/-- The solution on the card is for the target on the card. -/
def CardMatches (s : Dashboard D F) : Prop :=
  ∀ card ∈ s.firingSolutionCard, Denotes s.solutionIds card.solution.targetId card.targetId

/-- No solution is stored for another target. -/
def SolutionFits (s : Dashboard D F) (id : String) : Prop :=
  ∀ solution ∈ s.shootingSolution, Denotes s.solutionIds solution.targetId id

/-- A solution that comes while the selected target is on the screen is for that target; a target
on the screen is selected, and the selected target comes on the screen, only while no solution is
stored for another one. -/
def PairingFits (s : Dashboard D F) (a : DashboardAct D F) : Prop :=
  match a.op with
  | .shootingSolution message => ∀ id ∈ s.selectedTargetId,
      Displayed s.client.detectedTargets id → Denotes s.frameIds (message.targetId.getD "") id
  | .targetSelect id => id ≠ "" → Displayed s.client.detectedTargets id → s.SolutionFits id
  | .emit => ∀ tracked, s.client.pacer = .emitting tracked → ∀ id ∈ s.selectedTargetId,
      Displayed tracked id → ¬ Displayed s.client.detectedTargets id → s.SolutionFits id
  | _ => True

variable [KotlinFloat F] [KotlinDouble D F]

/-- The visual ids after the pacer has run the batch that it holds through the tracker. -/
def idsAfterTrack (s : Dashboard D F) (now : ℤ) : List (String × String) :=
  match s.client.pacer with
  | .holding latest _ => s.client.tracker.assignments now latest.targets
  | _ => s.frameIds

def perform (s : Dashboard D F) (now : ℤ) : DashboardOp D F → Option (Dashboard D F)
  | .trySend batch => some { s with client := s.client.trySend batch }
  | .stamp => (s.client.stamp now).map fun client => { s with client := client }
  | .receive => (s.client.receive now).map fun client => { s with client := client }
  | .track => (s.client.track now).map fun client =>
      { s with client := client, frameIds := s.idsAfterTrack now }
  | .emit => (s.client.emit now).map fun client => { s with client := client }
  | .watch => (s.client.watch now).map fun client => { s with client := client }
  | .shootingSolution message =>
    some { s with shootingSolution := some (message.toSolution now), solutionIds := s.frameIds }
  | .targetSelect id => some { s with selectedTargetId := if id.isEmpty then none else some id }

def apply (s : Dashboard D F) (a : DashboardAct D F) : Option (Dashboard D F) :=
  if s.clock ≤ a.now then (s.perform a.now a.op).map fun t => { t with clock := a.now } else none

def Step (s : Dashboard D F) (a : DashboardAct D F) (t : Dashboard D F) : Prop :=
  s.apply a = some t

variable {s t : Dashboard D F} {a : DashboardAct D F} {acts : List (DashboardAct D F)} {now : ℤ}

omit [KotlinFloat F] [KotlinDouble D F] in
theorem of_mem_lockedTarget {target : DetectedTarget F} (h : target ∈ s.lockedTarget) :
    target ∈ s.client.detectedTargets ∧ s.selectedTargetId = some target.id := by
  have hid := List.find?_some h
  exact ⟨List.mem_of_find?_eq_some h, (of_decide_eq_true hid).symm⟩

omit [KotlinFloat F] [KotlinDouble D F] in
/-- The card shows the selected target and the stored solution, as they are. -/
theorem card_mem_iff {card : FiringSolutionCard D F} :
    card ∈ s.firingSolutionCard ↔ s.selectedTargetId = some card.targetId ∧
      Displayed s.client.detectedTargets card.targetId ∧
      s.shootingSolution = some card.solution := by
  unfold firingSolutionCard
  constructor
  · intro h
    split at h
    · rename_i target solution htarget hsolution
      cases h
      obtain ⟨hmem, hid⟩ := of_mem_lockedTarget htarget
      exact ⟨hid, ⟨target, hmem, rfl⟩, hsolution⟩
    · cases h
  · rintro ⟨hid, ⟨target, hmem, htarget⟩, hsolution⟩
    obtain ⟨found, hfound⟩ : ∃ found, s.lockedTarget = some found := by
      rw [← Option.isSome_iff_exists, lockedTarget, List.find?_isSome]
      exact ⟨target, hmem, by simp [hid, htarget]⟩
    have hsame : card.targetId = found.id :=
      Option.some.inj (hid.symm.trans (of_mem_lockedTarget hfound).2)
    rw [hfound, hsolution]
    simp [← hsame]

omit [KotlinFloat F] [KotlinDouble D F] in
theorem cardMatches_iff :
    s.CardMatches ↔ ∀ id ∈ s.selectedTargetId, Displayed s.client.detectedTargets id →
      s.SolutionFits id := by
  constructor
  · intro h id hid hshown solution hsolution
    exact h ⟨id, solution⟩ (card_mem_iff.mpr ⟨hid, hshown, hsolution⟩)
  · intro h card hcard
    obtain ⟨hid, hshown, hsolution⟩ := card_mem_iff.mp hcard
    exact h _ hid hshown _ hsolution

omit [KotlinFloat F] [KotlinDouble D F] in
/-- A step that leaves selection and solution alone, and brings nothing new on the screen. -/
theorem cardMatches_of_less (hs : s.CardMatches)
    (hselected : t.selectedTargetId = s.selectedTargetId)
    (hsolution : t.shootingSolution = s.shootingSolution)
    (hids : t.solutionIds = s.solutionIds)
    (htargets : t.client.detectedTargets ⊆ s.client.detectedTargets) : t.CardMatches := by
  rw [cardMatches_iff] at *
  intro id hid hshown
  unfold SolutionFits
  rw [hselected] at hid
  rw [hsolution, hids]
  obtain ⟨target, htarget, heq⟩ := hshown
  exact hs id hid ⟨target, htargets htarget, heq⟩

theorem perform_cardMatches_iff (hs : s.CardMatches) {op : DashboardOp D F}
    (h : s.perform now op = some t) : t.CardMatches ↔ s.PairingFits ⟨now, op⟩ := by
  cases op with
  | trySend batch =>
    cases h
    exact iff_of_true (cardMatches_of_less hs rfl rfl rfl (List.Subset.refl _)) trivial
  | stamp =>
    obtain ⟨client, hstamp, rfl⟩ := Option.map_eq_some_iff.mp h
    obtain ⟨-, rfl⟩ := DetectionClient.stamp_eq_some.mp hstamp
    exact iff_of_true (cardMatches_of_less hs rfl rfl rfl (List.Subset.refl _)) trivial
  | receive =>
    obtain ⟨client, hreceive, rfl⟩ := Option.map_eq_some_iff.mp h
    obtain ⟨-, latest, -, rfl⟩ := DetectionClient.receive_eq_some.mp hreceive
    exact iff_of_true (cardMatches_of_less hs rfl rfl rfl (List.Subset.refl _)) trivial
  | track =>
    obtain ⟨client, htrack, rfl⟩ := Option.map_eq_some_iff.mp h
    obtain ⟨latest, resume, -, -, rfl⟩ := DetectionClient.track_eq_some.mp htrack
    exact iff_of_true (cardMatches_of_less hs rfl rfl rfl (List.Subset.refl _)) trivial
  | watch =>
    obtain ⟨client, hwatch, rfl⟩ := Option.map_eq_some_iff.mp h
    refine iff_of_true (cardMatches_of_less hs rfl rfl rfl ?_) trivial
    rcases (DetectionClient.watch_watched hwatch).detectedTargets with hsame | hempty
    · exact hsame ▸ List.Subset.refl _
    · exact hempty ▸ List.nil_subset _
  | emit =>
    obtain ⟨client, hemit, rfl⟩ := Option.map_eq_some_iff.mp h
    obtain ⟨tracked, hpacer, rfl⟩ := DetectionClient.emit_eq_some.mp hemit
    rw [cardMatches_iff] at hs ⊢
    constructor
    · intro hmatches tracked' heq id hid hshown _
      rw [hpacer] at heq
      cases heq
      exact hmatches id hid hshown
    · intro hfit id hid hshown
      -- a target that was on the screen already is paired by the invariant
      by_cases hbefore : Displayed s.client.detectedTargets id
      · exact hs id hid hbefore
      · exact hfit tracked hpacer id hid hshown hbefore
  | shootingSolution message =>
    cases h
    rw [cardMatches_iff]
    constructor
    · exact fun hmatches id hid hshown => hmatches id hid hshown _ rfl
    · intro hfit id hid hshown solution hsolution
      cases hsolution
      exact hfit id hid hshown
  | targetSelect id =>
    cases h
    rw [cardMatches_iff]
    by_cases hempty : id = ""
    · subst hempty
      exact iff_of_true (fun id hid => by cases hid) fun hne => absurd rfl hne
    · have hsome : (if id.isEmpty then none else some id) = some id := by simp [hempty]
      constructor
      · exact fun hmatches _ hshown => hmatches id hsome hshown
      · intro hfit id' hid' hshown
        cases hsome.symm.trans hid'
        exact hfit hempty hshown

omit [KotlinFloat F] [KotlinDouble D F] in
theorem created_cardMatches (now : ℤ) : (created now : Dashboard D F).CardMatches := by
  rw [cardMatches_iff]
  intro id hid
  cases hid

/-- In a run the card always shows the solution of its target exactly if a solution for another
target never meets a selected target on the screen. -/
theorem card_matches_iff {now : ℤ} :
    Run (Into CardMatches Step) (created now) acts t ↔
      Run (Guarded PairingFits Step) (created now) acts t := by
  have hstep : ∀ (s : Dashboard D F) a t, s.CardMatches → Step s a t →
      (t.CardMatches ↔ s.PairingFits a) := by
    intro s a t hs hst
    unfold Step apply at hst
    split_ifs at hst
    obtain ⟨u, hperform, rfl⟩ := Option.map_eq_some_iff.mp hst
    change u.CardMatches ↔ s.PairingFits a
    exact perform_cardMatches_iff hs hperform
  exact Run.into_iff_guarded (created_cardMatches now)
    (fun s a t hs hst hfit => ⟨(hstep s a t hs hst).mpr hfit, (hstep s a t hs hst).mpr hfit⟩)
    (fun s a t hs hst hfit hmatches => hfit ((hstep s a t hs hst).mp hmatches))

/-- Two persons come on the screen, the first is selected, and a solution comes for the second. -/
def solutionForAnother : List (DashboardAct ℚ ℚ) :=
  [⟨1100, .trySend ⟨[⟨"1", "person", 0.9, ⟨100, 100, 50, 120⟩, 0⟩,
      ⟨"2", "person", 0.8, ⟨900, 100, 50, 120⟩, 0⟩], 0, 0⟩⟩,
    ⟨1100, .stamp⟩, ⟨1100, .receive⟩, ⟨1100, .track⟩, ⟨1100, .emit⟩, ⟨2000, .targetSelect "T1"⟩,
    ⟨2500, .shootingSolution ⟨some "2", some 245.5, some 12.3, some 2.1, some 1.5, some 0.85,
      some 1234567890⟩⟩]

theorem card_shows_solution_for_another :
    ∃ t, Run Step (created 1000) solutionForAnother t ∧
      t.firingSolutionCard.map (fun card => (card.targetId, card.solution.targetId)) =
        some ("T1", "2") ∧
      t.frameIds = [("T1", "1"), ("T2", "2")] ∧ ¬ t.CardMatches := by
  have hfacts : (exec apply (created 1000) solutionForAnother).map
      (fun t => (t.firingSolutionCard.map fun card => (card.targetId, card.solution.targetId),
        t.frameIds, t.solutionIds)) =
      some (some ("T1", "2"), [("T1", "1"), ("T2", "2")], [("T1", "1"), ("T2", "2")]) := by
    decide +kernel
  obtain ⟨t, hexec, ht⟩ := Option.map_eq_some_iff.mp hfacts
  simp only [Prod.mk.injEq] at ht
  obtain ⟨hcard, hframe, hids⟩ := ht
  refine ⟨t, Run.of_exec hexec, hcard, hframe, fun hmatches => ?_⟩
  obtain ⟨card, hmem, hpair⟩ := Option.map_eq_some_iff.mp hcard
  rw [Prod.mk.injEq] at hpair
  have hdenotes := hmatches card hmem
  rw [hids, hpair.1, hpair.2] at hdenotes
  exact absurd hdenotes (by decide)

end Dashboard

end SnipeIt.Phone
