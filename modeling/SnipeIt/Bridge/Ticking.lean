import SnipeIt.Bridge.Snapshot
import SnipeIt.Support.RateLimit

/-! # The ticks of the bridge

The main loop ticks the bridge in every turn. A snapshot is built for a connected client if the
last one is a period old, and the clock is taken down even if nothing comes of it.
-/

namespace SnipeIt.Bridge
open Support Ddl

/-- What a tick finds: a client or none, the two clocks, and the frame. -/
structure Tick where
  clientConnected : Bool
  t : UInt64
  now : UInt64
  snap : Option DDLFrame

def Tick.time (e : Tick) : ℕ := e.t.toNat

def Tick.message (e : Tick) : Option (List UInt8) :=
  e.snap.bind fun f =>
    let buf := buildJson f e.now
    if buf.length = 0 ∨ bufSize ≤ buf.length then none else some buf

theorem Tick.message_of_inRange {e : Tick} {f : DDLFrame} (hsnap : e.snap = some f)
    (hf : f.InRange) : e.message = some (buildJson f e.now) := by
  obtain ⟨hpos, hlt⟩ := length_buildJson hf e.now
  rw [Tick.message, hsnap, Option.bind_some, if_neg (by omega)]

namespace TickingBridge

def started (periodMs : UInt32) : TickingBridge := ⟨periodMs, 0, true⟩

/-- What a run of ticks passes to `ws_send_json`. -/
def messages (b : TickingBridge) : List Tick → List (List UInt8)
  | [] => []
  | e :: es =>
    let r := ddlBridgeTick b e.clientConnected e.t e.now e.snap
    r.2.toList ++ messages r.1 es

def Due (b : TickingBridge) (e : Tick) : Prop :=
  e.clientConnected = true ∧ (b.lastEmitMs = 0 ∨ b.periodMs.toUInt64 ≤ e.t - b.lastEmitMs)

instance (b : TickingBridge) (e : Tick) : Decidable (b.Due e) := inferInstanceAs (Decidable (_ ∧ _))

/-- The ticks of a run that take down the clock. -/
def emitting (b : TickingBridge) : List Tick → List Tick
  | [] => []
  | e :: es =>
    if b.Due e then e :: emitting { b with lastEmitMs := e.t } es else emitting b es

def last (b : TickingBridge) : Option ℕ :=
  if b.lastEmitMs = 0 then none else some b.lastEmitMs.toNat

variable {b : TickingBridge} {e : Tick} {es : List Tick}

theorem ddlBridgeTick_eq (hstarted : b.schedulerStarted = true) (e : Tick) :
    ddlBridgeTick b e.clientConnected e.t e.now e.snap =
      if b.Due e then ({ b with lastEmitMs := e.t }, e.message) else (b, none) := by
  have hwait : ¬ (b.lastEmitMs ≠ 0 ∧ e.t - b.lastEmitMs < b.periodMs.toUInt64) ↔
      b.lastEmitMs = 0 ∨ b.periodMs.toUInt64 ≤ e.t - b.lastEmitMs := by
    rw [not_and_or, not_not, UInt64.not_lt]
  rw [ddlBridgeTick, if_neg (by simp [hstarted])]
  by_cases hclient : e.clientConnected = true
  · rw [if_neg (by simp [hclient])]
    by_cases hdue : b.lastEmitMs = 0 ∨ b.periodMs.toUInt64 ≤ e.t - b.lastEmitMs
    · rw [if_neg (hwait.mpr hdue), if_pos (show b.Due e from ⟨hclient, hdue⟩)]
      rfl
    · rw [if_pos (not_not.mp (hwait.not.mpr hdue)), if_neg fun h : b.Due e => hdue h.2]
  · rw [if_pos (by simpa using hclient), if_neg fun h : b.Due e => hclient h.1]

/-- A tick that takes down the clock passes on its message, if it has one. -/
theorem messages_built (hstarted : b.schedulerStarted = true) (es : List Tick) :
    List.Forall₂ (fun e json => e.message = some json)
      ((b.emitting es).filter (·.message.isSome)) (b.messages es) := by
  induction es generalizing b with
  | nil => exact .nil
  | cons e es ih =>
    simp only [messages, emitting, ddlBridgeTick_eq hstarted]
    split_ifs
    · have hrest := ih (b := { b with lastEmitMs := e.t }) hstarted
      cases hmessage : e.message with
      | none =>
        rw [List.filter_cons_of_neg (by simp [hmessage])]
        exact hrest
      | some json =>
        rw [List.filter_cons_of_pos (by simp [hmessage])]
        exact .cons hmessage hrest
    · exact ih hstarted

/-- Without an overflow the difference of the clocks is that of the numbers. -/
theorem due_iff (hle : b.lastEmitMs ≤ e.t) : b.Due e ↔ e.clientConnected = true ∧
    ∀ l ∈ b.last, l + b.periodMs.toNat ≤ e.time := by
  have hle' := UInt64.le_iff_toNat_le.mp hle
  have hperiod : b.periodMs.toUInt64 ≤ e.t - b.lastEmitMs ↔
      b.lastEmitMs.toNat + b.periodMs.toNat ≤ e.time := by
    rw [UInt64.le_iff_toNat_le, UInt64.toNat_sub_of_le _ _ hle, UInt32.toNat_toUInt64, Tick.time]
    omega
  rw [Due, last]
  split_ifs with hzero
  · simp [hzero]
  · simp [hzero, hperiod]

/-- The ticks that emit are those that a limiter of the rate lets pass. -/
theorem emitting_time (hpos : ∀ e ∈ es, e.t ≠ 0) (hsorted : es.Pairwise fun e e' => e.t ≤ e'.t)
    (hlast : ∀ e ∈ es, b.lastEmitMs ≤ e.t) :
    (b.emitting es).map Tick.time =
      RateLimit.passed b.periodMs.toNat b.last ((es.filter (·.clientConnected)).map Tick.time) := by
  induction es generalizing b with
  | nil => rfl
  | cons e es ih =>
    obtain ⟨hle, hsorted⟩ := List.pairwise_cons.mp hsorted
    have hpos' : ∀ e ∈ es, e.t ≠ 0 := fun e' he' => hpos e' (List.mem_cons_of_mem e he')
    have hdue := due_iff (hlast e List.mem_cons_self)
    rw [emitting]
    by_cases hclient : e.clientConnected = true
    · rw [List.filter_cons_of_pos hclient, List.map_cons, RateLimit.passed]
      by_cases hpass : ∀ l ∈ b.last, l + b.periodMs.toNat ≤ e.time
      · rw [if_pos (hdue.mpr ⟨hclient, hpass⟩), if_pos hpass, List.map_cons,
          ih hpos' hsorted (b := { b with lastEmitMs := e.t }) hle]
        rw [show last { b with lastEmitMs := e.t } = some e.time from
          if_neg (hpos e List.mem_cons_self)]
      · rw [if_neg fun h => hpass (hdue.mp h).2, if_neg hpass]
        exact ih hpos' hsorted fun e' he' => hlast e' (List.mem_cons_of_mem e he')
    · rw [List.filter_cons_of_neg hclient, if_neg fun h => hclient (hdue.mp h).1]
      exact ih hpos' hsorted fun e' he' => hlast e' (List.mem_cons_of_mem e he')

theorem emitting_sublist (b : TickingBridge) (es : List Tick) :
    List.Sublist (b.emitting es) (es.filter (·.clientConnected)) := by
  induction es generalizing b with
  | nil => exact List.Sublist.refl _
  | cons e es ih =>
    rw [emitting]
    split_ifs with hdue
    · rw [List.filter_cons_of_pos hdue.1]
      exact (ih _).cons_cons e
    · by_cases hclient : e.clientConnected = true
      · rw [List.filter_cons_of_pos hclient]
        exact (ih b).cons e
      · rw [List.filter_cons_of_neg hclient]
        exact ih b

end TickingBridge

open TickingBridge

/-- In every run of ticks on a clock that has started, snapshots are only built for a client, one
in each period at most. If every tick finds a frame in range, then at each tick with a client the
latest snapshot is less than a period old. -/
theorem snapshots_paced (periodMs : UInt32) {es : List Tick} (hpos : ∀ e ∈ es, e.t ≠ 0)
    (hsorted : es.Pairwise fun e e' => e.t ≤ e'.t) :
    ∃ built, List.Sublist built (es.filter (·.clientConnected)) ∧
      List.Forall₂ (fun e json => e.message = some json) built ((started periodMs).messages es) ∧
      (∀ a k, (built.filter fun e => a ≤ e.time ∧ e.time < a + k * periodMs.toNat).length ≤ k) ∧
      ((∀ e ∈ es, ∃ f, e.snap = some f ∧ f.InRange) → ∀ e ∈ es, e.clientConnected = true →
        ∃ e' ∈ built, e'.time ≤ e.time ∧
          (e.time = e'.time ∨ e.time < e'.time + periodMs.toNat)) := by
  have htime : ((started periodMs).emitting es).map Tick.time =
      RateLimit.passed periodMs.toNat none ((es.filter (·.clientConnected)).map Tick.time) :=
    emitting_time hpos hsorted fun e _ => UInt64.le_iff_toNat_le.mpr (Nat.zero_le _)
  refine ⟨((started periodMs).emitting es).filter (·.message.isSome),
    List.filter_sublist.trans (emitting_sublist _ es), messages_built rfl es, ?_, ?_⟩
  · intro a k
    have hspaced := RateLimit.passed_spaced periodMs.toNat none
      ((es.filter (·.clientConnected)).map Tick.time)
    rw [Option.toList_none, List.nil_append, ← htime] at hspaced
    have hsub := (List.filter_sublist (p := fun e : Tick =>
      a ≤ e.time ∧ e.time < a + k * periodMs.toNat)).trans
        (List.filter_sublist (l := (started periodMs).emitting es) (p := (·.message.isSome)))
    have hlength := (hspaced.sublist (Nat.zero_le _) (hsub.map Tick.time)).length_le
      (Nat.zero_le _) (a := a) (k := k)
      (fun t ht => by
        obtain ⟨e, he, rfl⟩ := List.mem_map.mp ht
        exact (of_decide_eq_true (List.mem_filter.mp he).2).1)
      (fun t ht => by
        obtain ⟨e, he, rfl⟩ := List.mem_map.mp ht
        rw [smul_eq_mul]
        exact (of_decide_eq_true (List.mem_filter.mp he).2).2)
    rwa [List.length_map] at hlength
  · intro hframes e he hclient
    have hmem : e.time ∈ (es.filter (·.clientConnected)).map Tick.time :=
      List.mem_map_of_mem (List.mem_filter.mpr ⟨he, hclient⟩)
    have hordered : ((es.filter (·.clientConnected)).map Tick.time).Pairwise (· ≤ ·) :=
      List.pairwise_map.mpr ((hsorted.filter _).imp fun h => UInt64.le_iff_toNat_le.mp h)
    have hfirst : ∀ l ∈ (none : Option ℕ), ∀ t ∈ (es.filter (·.clientConnected)).map Tick.time,
        l ≤ t := nofun
    obtain ⟨p, hp, hle, hlate⟩ := RateLimit.exists_passed periodMs.toNat hfirst hordered hmem
    rw [Option.toList_none, List.nil_append, ← htime] at hp
    obtain ⟨e', he', rfl⟩ := List.mem_map.mp hp
    obtain ⟨f, hsnap, hf⟩ := hframes e'
      (List.mem_of_mem_filter ((emitting_sublist _ es).subset he'))
    refine ⟨e', List.mem_filter.mpr ⟨he', ?_⟩, hle, hlate⟩
    rw [Tick.message_of_inRange hsnap hf]
    rfl

/-- Three turns of the main loop with the period of `main.c`. -/
def threeTicks : List Tick :=
  [⟨true, 5000, 0, some extremeFrame⟩, ⟨true, 5400, 400, some extremeFrame⟩,
    ⟨true, 6000, 1000, some extremeFrame⟩]

theorem snapshots_paced_three :
    (started 1000).messages threeTicks = [buildJson extremeFrame 0, buildJson extremeFrame 1000] ∧
    ∃ built, List.Sublist built (threeTicks.filter (·.clientConnected)) ∧
      List.Forall₂ (fun e json => e.message = some json) built
        ((started 1000).messages threeTicks) ∧
      (∀ a k, (built.filter fun e => a ≤ e.time ∧
        e.time < a + k * (1000 : UInt32).toNat).length ≤ k) ∧
      ∀ e ∈ threeTicks, e.clientConnected = true → ∃ e' ∈ built, e'.time ≤ e.time ∧
        (e.time = e'.time ∨ e.time < e'.time + (1000 : UInt32).toNat) := by
  have hframes : ∀ e ∈ threeTicks, ∃ f, e.snap = some f ∧ f.InRange := by
    intro e he
    refine ⟨extremeFrame, ?_, extremeFrame_inRange⟩
    fin_cases he <;> rfl
  have hstarted : ∀ e ∈ threeTicks, e.t ≠ 0 := by simp [threeTicks]
  obtain ⟨built, hclients, hbuilt, hrate, hfresh⟩ :=
    snapshots_paced 1000 hstarted (by simp [threeTicks])
  refine ⟨?_, built, hclients, hbuilt, hrate, hfresh hframes⟩
  have hfirst := ddlBridgeTick_due (b := started 1000) (t := 5000) rfl (.inl rfl)
    extremeFrame_inRange 0
  have hlast := ddlBridgeTick_due (b := { started 1000 with lastEmitMs := 5000 }) (t := 6000) rfl
    (.inr (by decide)) extremeFrame_inRange 1000
  have hwait : ddlBridgeTick { started 1000 with lastEmitMs := 5000 } true 5400 400
      (some extremeFrame) = ({ started 1000 with lastEmitMs := 5000 }, none) := by
    rw [ddlBridgeTick, if_neg (by decide), if_neg (by decide), if_pos (by decide)]
  simp only [threeTicks, messages, hfirst, hwait, hlast]
  rfl

end SnipeIt.Bridge
