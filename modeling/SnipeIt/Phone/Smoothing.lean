import Mathlib.Data.Rat.Floor
import Mathlib.Tactic.NormNum
import SnipeIt.Phone.Overlap
import SnipeIt.Phone.TrackedMap
import SnipeIt.Support.FloorMean

/-! # Smoothed boxes

A matched target goes seven tenths of the way to its detection, in every
coordinate by `emaInt`, which cuts off the fraction. Without rounding errors in
the average, a target that has come to rest is soon within one pixel of its
detections.
-/

namespace SnipeIt.Phone
open Support

/-! ## One coordinate -/

theorem toInt_toInt {q : ℚ} (hq : 0 ≤ q) (hmax : ⌊q⌋ < 2 ^ 31) :
    (KotlinFloat.toInt q).toInt = ⌊q⌋ := by
  have hnonneg : 0 ≤ ⌊q⌋ := Int.floor_nonneg.mpr hq
  change (Int32.ofIntClamp (q.num.tdiv q.den)).toInt = ⌊q⌋
  rw [tdiv_of_nonneg hq]
  apply Int32.toInt_ofIntClamp
  · exact le_trans (by decide) hnonneg
  · exact Int.lt_add_one_iff.mp hmax

theorem floorMean_mem_emaAlpha (old new : ℤ) :
    floorMean (7 / 10 : ℚ) old new ∈ Set.uIcc old new :=
  floorMean_mem (by norm_num) (by norm_num) old new

theorem toInt_emaInt {old new : Int32} (hold : 0 ≤ old) (hnew : 0 ≤ new) :
    (emaInt old new (emaAlpha : ℚ)).toInt = floorMean (7 / 10 : ℚ) old.toInt new.toInt := by
  have hold' : 0 ≤ old.toInt := Int32.le_iff_toInt_le.mp hold
  have hnew' : 0 ≤ new.toInt := Int32.le_iff_toInt_le.mp hnew
  have halpha : (emaAlpha : ℚ) = 7 / 10 := by norm_num [emaAlpha]
  have hone : (1.0 : ℚ) = 1 := by norm_num
  have hnonneg : (0 : ℚ) ≤ 7 / 10 * new.toInt + (1 - 7 / 10) * old.toInt := by
    have holdq : (0 : ℚ) ≤ old.toInt := Int.cast_nonneg hold'
    have hnewq : (0 : ℚ) ≤ new.toInt := Int.cast_nonneg hnew'
    linarith
  have hmax : floorMean (7 / 10 : ℚ) old.toInt new.toInt < 2 ^ 31 :=
    (floorMean_mem_emaAlpha _ _).2.trans_lt (max_lt old.toInt_lt new.toInt_lt)
  rw [emaInt, halpha, hone]
  exact toInt_toInt hnonneg hmax

section Coordinate

variable {old new : Int32}

theorem emaInt_mem (hold : 0 ≤ old) (hnew : 0 ≤ new) :
    min old new ≤ emaInt old new (emaAlpha : ℚ) ∧
      emaInt old new (emaAlpha : ℚ) ≤ max old new := by
  have hmem := floorMean_mem_emaAlpha old.toInt new.toInt
  rw [Int32.le_iff_toInt_le, Int32.le_iff_toInt_le, toInt_min, toInt_max, toInt_emaInt hold hnew]
  exact hmem

theorem emaInt_nonneg (hold : 0 ≤ old) (hnew : 0 ≤ new) :
    0 ≤ emaInt old new (emaAlpha : ℚ) := by
  have hlow := (floorMean_mem_emaAlpha old.toInt new.toInt).1
  rw [Int32.le_iff_toInt_le, toInt_emaInt hold hnew]
  exact (le_min (Int32.le_iff_toInt_le.mp hold) (Int32.le_iff_toInt_le.mp hnew)).trans hlow

theorem emaInt_self (hnew : 0 ≤ new) : emaInt new new (emaAlpha : ℚ) = new := by
  rw [← Int32.toInt_inj, toInt_emaInt hnew hnew, floorMean_self]

/-- It stays where it is at its target and one below. -/
theorem emaInt_eq_old_iff (hold : 0 ≤ old) (hnew : 0 ≤ new) :
    emaInt old new (emaAlpha : ℚ) = old ↔
      old.toInt = new.toInt ∨ old.toInt = new.toInt - 1 := by
  have hstep : (7 / 10 : ℚ) * ((new.toInt - old.toInt : ℤ) : ℚ) < 1 ↔
      new.toInt - old.toInt ≤ 1 := by
    constructor
    · intro hlt
      have htwo : ((new.toInt - old.toInt : ℤ) : ℚ) < 2 := by linarith
      exact Int.lt_add_one_iff.mp (by exact_mod_cast htwo)
    · intro hle
      have hone : ((new.toInt - old.toInt : ℤ) : ℚ) ≤ 1 := by exact_mod_cast hle
      linarith
  rw [← Int32.toInt_inj, toInt_emaInt hold hnew, floorMean_eq_old_iff (by norm_num), hstep]
  omega

theorem toInt_iterate_emaInt (hold : 0 ≤ old) (hnew : 0 ≤ new) (k : ℕ) :
    0 ≤ (emaInt · new (emaAlpha : ℚ))^[k] old ∧
      ((emaInt · new (emaAlpha : ℚ))^[k] old).toInt =
        (floorMean (7 / 10 : ℚ) · new.toInt)^[k] old.toInt := by
  induction k with
  | zero => exact ⟨hold, rfl⟩
  | succ k ih =>
    rw [Function.iterate_succ_apply', Function.iterate_succ_apply', ← ih.2]
    exact ⟨emaInt_nonneg ih.1 hnew, toInt_emaInt ih.1 hnew⟩

/-- It takes a logarithmic number of steps to come within one, for good. -/
theorem abs_iterate_emaInt_sub_le (hold : 0 ≤ old) (hnew : 0 ≤ new) {k : ℕ}
    (hk : Nat.clog 3 (old.toInt - new.toInt).natAbs ≤ k) :
    |((emaInt · new (emaAlpha : ℚ))^[k] old).toInt - new.toInt| ≤ 1 := by
  rw [(toInt_iterate_emaInt hold hnew k).2]
  exact abs_iterate_floorMean_sub_le (b := 3) (by norm_num) (by norm_num)
    (abs_le_pow_of_clog (by decide) hk)

/-- Where a coordinate comes to rest: at its target, or one below if it comes from below. -/
def restAt (old new : Int32) : Int32 := if new ≤ old then new else new - 1

theorem toInt_restAt (hold : 0 ≤ old) :
    (restAt old new).toInt = if new.toInt ≤ old.toInt then new.toInt else new.toInt - 1 := by
  have hold' : 0 ≤ old.toInt := Int32.le_iff_toInt_le.mp hold
  have hmax := new.toInt_lt
  rw [restAt]
  by_cases hside : new ≤ old
  · rw [if_pos hside, if_pos (Int32.le_iff_toInt_le.mp hside)]
  · have hlt : ¬ new.toInt ≤ old.toInt := fun hle => hside (Int32.le_iff_toInt_le.mpr hle)
    rw [if_neg hside, if_neg hlt, Int32.toInt_sub]
    exact wrap_eq (n := new.toInt - 1) (by omega) (by omega)

theorem iterate_emaInt_eq (hold : 0 ≤ old) (hnew : 0 ≤ new) {k : ℕ}
    (hk : Nat.clog 3 (old.toInt - new.toInt).natAbs < k) :
    (emaInt · new (emaAlpha : ℚ))^[k] old = restAt old new := by
  obtain ⟨k, rfl⟩ := Nat.exists_eq_add_one.mpr (Nat.zero_lt_of_lt hk)
  rw [← Int32.toInt_inj, (toInt_iterate_emaInt hold hnew _).2, toInt_restAt hold]
  exact iterate_floorMean_eq (b := 3) (by norm_num) (by norm_num) (by norm_num)
    (abs_le_pow_of_clog (by decide) (Nat.lt_add_one_iff.mp hk))

end Coordinate

/-! ## Boxes -/

/-- No component is negative. -/
def BoundingBox.Nonneg (b : BoundingBox) : Prop :=
  0 ≤ b.x ∧ 0 ≤ b.y ∧ 0 ≤ b.width ∧ 0 ≤ b.height

instance (b : BoundingBox) : Decidable b.Nonneg :=
  inferInstanceAs (Decidable (0 ≤ b.x ∧ 0 ≤ b.y ∧ 0 ≤ b.width ∧ 0 ≤ b.height))

def BoundingBox.gap (a b : BoundingBox) : ℕ :=
  max (max (a.x.toInt - b.x.toInt).natAbs (a.y.toInt - b.y.toInt).natAbs)
    (max (a.width.toInt - b.width.toInt).natAbs (a.height.toInt - b.height.toInt).natAbs)

theorem BoundingBox.gap_le_iff {a b : BoundingBox} {n : ℕ} : a.gap b ≤ n ↔
    ((a.x.toInt - b.x.toInt).natAbs ≤ n ∧ (a.y.toInt - b.y.toInt).natAbs ≤ n) ∧
      (a.width.toInt - b.width.toInt).natAbs ≤ n ∧
        (a.height.toInt - b.height.toInt).natAbs ≤ n := by
  rw [gap, max_le_iff, max_le_iff, max_le_iff]

theorem smoothBbox_nonneg {old new : BoundingBox} (hold : old.Nonneg) (hnew : new.Nonneg) :
    (smoothBbox ℚ old new).Nonneg := by
  obtain ⟨hox, hoy, how, hoh⟩ := hold
  obtain ⟨hnx, hny, hnw, hnh⟩ := hnew
  exact ⟨emaInt_nonneg hox hnx, emaInt_nonneg hoy hny, emaInt_nonneg how hnw,
    emaInt_nonneg hoh hnh⟩

theorem smoothBbox_self {box : BoundingBox} (h : box.Nonneg) : smoothBbox ℚ box box = box := by
  obtain ⟨hx, hy, hw, hh⟩ := h
  rw [smoothBbox, emaInt_self hx, emaInt_self hy, emaInt_self hw, emaInt_self hh]

section

variable {F : Type*} [KotlinFloat F]

theorem iterate_smoothBbox (old box : BoundingBox) (k : ℕ) : (smoothBbox F · box)^[k] old =
    { x := (emaInt · box.x (emaAlpha : F))^[k] old.x
      y := (emaInt · box.y (emaAlpha : F))^[k] old.y
      width := (emaInt · box.width (emaAlpha : F))^[k] old.width
      height := (emaInt · box.height (emaAlpha : F))^[k] old.height } := by
  induction k with
  | zero => rfl
  | succ k ih =>
    simp only [Function.iterate_succ_apply', ih]
    rfl

/-- The box of a target that was seen in these boxes, one after the other. -/
def smoothed (F : Type*) [KotlinFloat F] : List BoundingBox → Option BoundingBox
  | [] => none
  | first :: later => some (later.foldl (smoothBbox F) first)

theorem smoothed_eq_none_iff {seen : List BoundingBox} : smoothed F seen = none ↔ seen = [] := by
  cases seen <;> simp [smoothed]

theorem smoothed_concat (seen : List BoundingBox) (box : BoundingBox) :
    smoothed F (seen ++ [box]) =
      some ((smoothed F seen).elim box fun old => smoothBbox F old box) := by
  cases seen with
  | nil => rfl
  | cons first later => exact congrArg some (List.foldl_concat _ _ _ _)

theorem smoothed_replicate {seen : List BoundingBox} {old : BoundingBox}
    (h : smoothed F seen = some old) (box : BoundingBox) (n : ℕ) :
    smoothed F (seen ++ List.replicate n box) = some ((smoothBbox F · box)^[n] old) := by
  induction n with
  | zero => simpa using h
  | succ n ih =>
    rw [List.replicate_succ', ← List.append_assoc, smoothed_concat, ih,
      Function.iterate_succ_apply']
    rfl

end

theorem smoothed_nonneg {seen : List BoundingBox} (h : ∀ box ∈ seen, box.Nonneg)
    {old : BoundingBox} (hold : smoothed ℚ seen = some old) : old.Nonneg := by
  induction seen using List.reverseRecOn generalizing old with
  | nil => cases hold
  | append_singleton seen box ih =>
    have hbox : box.Nonneg := h box (by simp)
    rw [smoothed_concat, Option.some.injEq] at hold
    subst hold
    cases hseen : smoothed ℚ seen with
    | none => exact hbox
    | some old =>
      exact smoothBbox_nonneg (ih (fun b hb => h b (List.mem_append_left _ hb)) hseen) hbox

/-- Seen in the same box a logarithmic number of times, a target is within one pixel of it. -/
theorem gap_iterate_smoothBbox_le {old box : BoundingBox} (hold : old.Nonneg) (hbox : box.Nonneg)
    {n : ℕ} (hn : Nat.clog 3 (old.gap box) ≤ n) : ((smoothBbox ℚ · box)^[n] old).gap box ≤ 1 := by
  obtain ⟨hox, hoy, how, hoh⟩ := hold
  obtain ⟨hnx, hny, hnw, hnh⟩ := hbox
  obtain ⟨⟨hx, hy⟩, hw, hh⟩ := BoundingBox.gap_le_iff.mp (Nat.le_refl (old.gap box))
  have hclose : ∀ {o b : Int32}, 0 ≤ o → 0 ≤ b → (o.toInt - b.toInt).natAbs ≤ old.gap box →
      (((emaInt · b (emaAlpha : ℚ))^[n] o).toInt - b.toInt).natAbs ≤ 1 := by
    intro o b ho hb hgap
    have habs := abs_iterate_emaInt_sub_le ho hb ((Nat.clog_mono_right 3 hgap).trans hn)
    rw [Int.abs_eq_natAbs] at habs
    exact_mod_cast habs
  rw [iterate_smoothBbox, BoundingBox.gap_le_iff]
  exact ⟨⟨hclose hox hnx hx, hclose hoy hny hy⟩, hclose how hnw hw, hclose hoh hnh hh⟩

/-- Where a box comes to rest. -/
def BoundingBox.restAt (old box : BoundingBox) : BoundingBox where
  x := SnipeIt.Phone.restAt old.x box.x
  y := SnipeIt.Phone.restAt old.y box.y
  width := SnipeIt.Phone.restAt old.width box.width
  height := SnipeIt.Phone.restAt old.height box.height

theorem iterate_smoothBbox_eq {old box : BoundingBox} (hold : old.Nonneg) (hbox : box.Nonneg)
    {n : ℕ} (hn : Nat.clog 3 (old.gap box) < n) :
    (smoothBbox ℚ · box)^[n] old = old.restAt box := by
  obtain ⟨hox, hoy, how, hoh⟩ := hold
  obtain ⟨hnx, hny, hnw, hnh⟩ := hbox
  obtain ⟨⟨hx, hy⟩, hw, hh⟩ := BoundingBox.gap_le_iff.mp (Nat.le_refl (old.gap box))
  rw [iterate_smoothBbox, iterate_emaInt_eq hox hnx ((Nat.clog_mono_right 3 hx).trans_lt hn),
    iterate_emaInt_eq hoy hny ((Nat.clog_mono_right 3 hy).trans_lt hn),
    iterate_emaInt_eq how hnw ((Nat.clog_mono_right 3 hw).trans_lt hn),
    iterate_emaInt_eq hoh hnh ((Nat.clog_mono_right 3 hh).trans_lt hn)]
  rfl

/-! ## Sightings -/

variable {F : Type*} [KotlinFloat F]

def TrackerCall.box? (c : TrackerCall F) (idx : ℕ) : Option BoundingBox :=
  c.incoming[idx]?.map (·.bbox)

/-- The boxes of the detections that a call gives to a key. -/
def TrackerSession.given (s : TrackerSession F) (c : TrackerCall F) (id : String) :
    List BoundingBox :=
  (s.updated c.now c.incoming).absorbed.filterMap fun p =>
    if p.1 = id then c.box? p.2 else none

theorem TrackerSession.given_of_not_mem {s : TrackerSession F} {c : TrackerCall F} {id : String}
    (h : id ∉ (s.updated c.now c.incoming).absorbed.map Prod.fst) : s.given c id = [] :=
  filterMap_key_of_not_mem c.box? h

/-- The session with a record of the boxes in which each key was seen. -/
structure Sightings (F : Type*) where
  session : TrackerSession F
  seen : String → List BoundingBox

namespace Sightings

def start : Sightings F := ⟨TrackerSession.init, fun _ => []⟩

def after (s : Sightings F) (c : TrackerCall F) : Sightings F where
  session := (s.session.matchAndSmooth c.now c.incoming).1
  seen := fun id => s.seen id ++ s.session.given c id

@[simp] theorem after_seen (s : Sightings F) (c : TrackerCall F) (id : String) :
    (s.after c).seen id = s.seen id ++ s.session.given c id := rfl

/-- A call of `matchAndSmooth`, at any time. -/
def Step (s : Sightings F) (c : TrackerCall F) (t : Sightings F) : Prop := t = s.after c

/-- Every tracked target has the box that its sightings make. -/
structure Averaged (s : Sightings F) : Prop where
  keyed : s.session.Keyed
  fresh : s.session.Fresh
  unseen : ∀ n ≥ s.session.nextVisualIdCounter, s.seen (visualId n) = []
  averaged : ∀ id track, s.session.trackedTargets.get? id = some track →
    smoothed F (s.seen id) = some track.bbox

variable {s : Sightings F} {c : TrackerCall F} {id : String}

theorem Averaged.given_of_absorbed (hs : s.Averaged) {idx : ℕ} {det : DetectedTarget F}
    (hmem : (id, idx) ∈ (s.session.updated c.now c.incoming).absorbed)
    (hdet : c.incoming[idx]? = some det) : s.session.given c id = [det.bbox] := by
  have hnodup := (hs.keyed.bookkept hs.fresh c.now c.incoming).targets
  rw [TrackerSession.given, filterMap_key_of_mem c.box? hnodup hmem, TrackerCall.box?, hdet]
  rfl

/-- A key that the counter has still to give sees no detection. -/
theorem Averaged.unseen_after (hs : s.Averaged) {n : ℕ}
    (hn : (s.after c).session.nextVisualIdCounter ≤ n) : (s.after c).seen (visualId n) = [] := by
  have hle := hs.keyed.counter_le c.now c.incoming
  have hnone := hs.fresh.after hs.keyed c.now c.incoming n hn
  have hnot : visualId n ∉ (s.session.updated c.now c.incoming).absorbed.map Prod.fst := by
    intro hmem
    obtain ⟨p, hp, heq⟩ := List.mem_map.mp hmem
    obtain ⟨track, hget, -⟩ := (hs.keyed.bookkept hs.fresh c.now c.incoming).seen p hp
    rw [heq, hnone] at hget
    cases hget
  rw [after_seen, hs.unseen n (hle.trans hn), TrackerSession.given_of_not_mem hnot]
  rfl

theorem Averaged.after (hs : s.Averaged) (c : TrackerCall F) : (s.after c).Averaged where
  keyed := hs.keyed.after hs.fresh c.now c.incoming
  fresh := hs.fresh.after hs.keyed c.now c.incoming
  unseen := fun n hn => hs.unseen_after hn
  averaged := by
    intro id track hget
    rw [Sightings.after, TrackerSession.get?_matchAndSmooth, Option.filter_eq_some_iff] at hget
    rw [after_seen]
    cases hs.keyed.updated_origin hs.fresh hget.1 with
    | matched idx det old hmem hdet hold heq =>
      rw [hs.given_of_absorbed hmem hdet, smoothed_concat, hs.averaged id old hold, heq]
      rfl
    | new idx n det hmem hdet hn hid heq =>
      rw [hs.given_of_absorbed hmem hdet, hid, hs.unseen n hn, heq]
      rfl
    | kept hnot hold =>
      rw [TrackerSession.given_of_not_mem hnot, List.append_nil, hs.averaged id track hold]

theorem start_averaged : (start : Sightings F).Averaged where
  keyed := fun id track hget => by cases hget
  fresh := fun n _ => rfl
  unseen := fun n _ => rfl
  averaged := fun id track hget => by cases hget

/-- In every session, the box of a target is the moving average of those that it was seen in. -/
theorem boxes_averaged {calls : List (TrackerCall F)} (h : Run Step start calls s) : s.Averaged :=
  h.invariant start_averaged (by
    rintro s c t hs rfl
    exact hs.after c)

theorem Averaged.result_averaged (hs : s.Averaged) (c : TrackerCall F) {r : DetectedTarget F}
    (hr : r ∈ (s.session.matchAndSmooth c.now c.incoming).2) :
    smoothed F ((s.after c).seen r.id) = some r.bbox := by
  obtain ⟨id, track, hget, rfl⟩ := TrackerSession.mem_result_iff.mp hr
  have hid : track.visualId = id := (hs.after c).keyed id track hget
  have hbox := (hs.after c).averaged id track hget
  rw [← hid] at hbox
  exact hbox

/-! ## A target at rest -/

section AtRest

variable {s : Sightings ℚ} {track : TrackedTarget ℚ} {before : List BoundingBox}
  {box : BoundingBox} {n : ℕ}

/-- A target that was never seen elsewhere is in its place. -/
theorem Averaged.bbox_of_replicate (hs : s.Averaged)
    (hget : s.session.trackedTargets.get? id = some track) (hbox : box.Nonneg)
    (hseen : s.seen id = List.replicate n box) : track.bbox = box := by
  have haveraged := hs.averaged id track hget
  rw [hseen] at haveraged
  cases n with
  | zero => cases haveraged
  | succ n =>
    have hfirst : smoothed ℚ [box] = some box := rfl
    have hrest : (smoothBbox ℚ · box)^[n] box = box :=
      Function.iterate_fixed (f := (smoothBbox ℚ · box)) (smoothBbox_self hbox) n
    have hall := smoothed_replicate hfirst box n
    rw [hrest] at hall
    exact Option.some.inj (haveraged.symm.trans hall)

theorem nonneg_before (hnonneg : ∀ b ∈ s.seen id, b.Nonneg)
    (hseen : s.seen id = before ++ List.replicate n box) {old : BoundingBox}
    (hbefore : smoothed ℚ before = some old) : old.Nonneg := by
  rw [hseen] at hnonneg
  exact smoothed_nonneg (fun b hb => hnonneg b (List.mem_append_left _ hb)) hbefore

theorem Averaged.bbox_of_append (hs : s.Averaged)
    (hget : s.session.trackedTargets.get? id = some track)
    (hseen : s.seen id = before ++ List.replicate n box) {old : BoundingBox}
    (hbefore : smoothed ℚ before = some old) :
    track.bbox = (smoothBbox ℚ · box)^[n] old := by
  have haveraged := hs.averaged id track hget
  rw [hseen, smoothed_replicate hbefore, Option.some.injEq] at haveraged
  exact haveraged.symm

/-- The last sightings in one place bring the box within one pixel of it. -/
theorem Averaged.gap_le_one (hs : s.Averaged)
    (hget : s.session.trackedTargets.get? id = some track) (hnonneg : ∀ b ∈ s.seen id, b.Nonneg)
    (hbox : box.Nonneg) (hseen : s.seen id = before ++ List.replicate n box)
    (hn : ∀ old ∈ smoothed ℚ before, Nat.clog 3 (old.gap box) ≤ n) :
    track.bbox.gap box ≤ 1 := by
  cases hbefore : smoothed ℚ before with
  | none =>
    rw [smoothed_eq_none_iff.mp hbefore, List.nil_append] at hseen
    rw [hs.bbox_of_replicate hget hbox hseen]
    simp [BoundingBox.gap]
  | some old =>
    have hold := nonneg_before hnonneg hseen hbefore
    rw [hs.bbox_of_append hget hseen hbefore]
    exact gap_iterate_smoothBbox_le hold hbox (hn old hbefore)

theorem Averaged.bbox_eq_restAt (hs : s.Averaged)
    (hget : s.session.trackedTargets.get? id = some track) (hnonneg : ∀ b ∈ s.seen id, b.Nonneg)
    (hbox : box.Nonneg) (hseen : s.seen id = before ++ List.replicate n box) {old : BoundingBox}
    (hbefore : smoothed ℚ before = some old) (hn : Nat.clog 3 (old.gap box) < n) :
    track.bbox = old.restAt box := by
  rw [hs.bbox_of_append hget hseen hbefore]
  exact iterate_smoothBbox_eq (nonneg_before hnonneg hseen hbefore) hbox hn

end AtRest

/-- A coordinate goes to its new value without overshoot, rests there, and comes within one of it
in a logarithmic number of steps, for good. So does, in every session, the box of a target that is
seen in one place from some call on. -/
theorem box_smoothing_converges :
    (∀ old new : Int32, 0 ≤ old → 0 ≤ new →
      (min old new ≤ emaInt old new (emaAlpha : ℚ) ∧
        emaInt old new (emaAlpha : ℚ) ≤ max old new) ∧
      emaInt new new (emaAlpha : ℚ) = new ∧
      ∀ k ≥ Nat.clog 3 (old.toInt - new.toInt).natAbs,
        |((emaInt · new (emaAlpha : ℚ))^[k] old).toInt - new.toInt| ≤ 1) ∧
    ∀ (calls : List (TrackerCall ℚ)) (s : Sightings ℚ), Run Step start calls s →
      ∀ id track, s.session.trackedTargets.get? id = some track →
      ∀ before box n, s.seen id = before ++ List.replicate n box →
        (∀ b ∈ box :: s.seen id, b.Nonneg) →
        (∀ old ∈ smoothed ℚ before, Nat.clog 3 (old.gap box) ≤ n) →
        track.bbox.gap box ≤ 1 := by
  constructor
  · intro old new hold hnew
    exact ⟨emaInt_mem hold hnew, emaInt_self hnew,
      fun k hk => abs_iterate_emaInt_sub_le hold hnew hk⟩
  · intro calls s hrun id track hget before box n hseen hnonneg hn
    rw [List.forall_mem_cons] at hnonneg
    exact (boxes_averaged hrun).gap_le_one hget hnonneg.2 hnonneg.1 hseen hn

/-- Someone at one place of the picture who takes a step to the side. -/
def sidestep : List (TrackerCall ℚ) :=
  let moved : DetectedTarget ℚ := ⟨"1", "person", 0.9, ⟨110, 100, 50, 120⟩, 0⟩
  [⟨1000, [Tracking.someone]⟩, ⟨1100, [moved]⟩, ⟨1200, [moved]⟩, ⟨1300, [moved]⟩]

theorem box_smoothing_converges_sidestep : ∃ s track, Run Step start sidestep s ∧
    s.session.trackedTargets.get? "T1" = some track ∧ track.bbox.gap ⟨110, 100, 50, 120⟩ ≤ 1 ∧
    |((emaInt · 110 (emaAlpha : ℚ))^[3] 100).toInt - (110 : Int32).toInt| ≤ 1 := by
  have hrun : Run Step start sidestep (sidestep.foldl after start) :=
    Run.of_foldl after start sidestep
  have htracked :
      ((sidestep.foldl after start).session.trackedTargets.get? "T1").isSome = true := by
    decide +kernel
  have hseen : (sidestep.foldl after start).seen "T1" =
      [⟨100, 100, 50, 120⟩] ++ List.replicate 3 ⟨110, 100, 50, 120⟩ := by
    decide +kernel
  obtain ⟨track, hget⟩ := Option.isSome_iff_exists.mp htracked
  refine ⟨_, track, hrun, hget, ?_, ?_⟩
  · refine box_smoothing_converges.2 _ _ hrun "T1" track hget _ _ 3 hseen ?_ ?_
    · rw [hseen]
      decide
    · decide +kernel
  · exact (box_smoothing_converges.1 100 110 (by decide) (by decide)).2.2 3 (by decide)

end Sightings

end SnipeIt.Phone
