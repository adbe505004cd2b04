import Mathlib.Data.List.ReduceOption
import SnipeIt.Util.EventBus

/-! # Routing on the event bus

The table of subscriptions after any history of calls, where subscriptions are
repeated, refused or find the table full. What the post functions do is an
argument: publishing is a fold over the subscriptions to the event.
-/

namespace SnipeIt.Util

variable {P σ : Type*}

def routed (subs : List (Subscription P)) (aoId type : ℕ) : List (Subscription P) :=
  subs.filter fun sub => sub.Matches aoId type

/-- One call of the post function for each subscription, in order. -/
def callEach (post : P → ℕ → BusEvent → σ → Status × σ) (subs : List (Subscription P)) (s : σ) :
    σ :=
  subs.foldl (fun s sub => (post sub.postFn sub.module sub.event s).2) s

namespace Bus

theorem notify_calls (post : P → ℕ → BusEvent → σ → Status × σ) (aoId type : ℕ)
    (slots : List (Option (Subscription P))) (matched : Bool) (s : σ) :
    (notify post aoId type slots matched s).2 =
      callEach post (routed slots.reduceOption aoId type) s := by
  induction slots generalizing matched s with
  | nil => rfl
  | cons slot slots ih =>
    cases slot with
    | none => rw [notify, ih, List.reduceOption_cons_of_none]
    | some sub =>
      rw [notify, List.reduceOption_cons_of_some, routed, List.filter_cons]
      by_cases hsub : sub.Matches aoId type
      · simp only [hsub, if_true, decide_true, ih]
        rfl
      · simp only [hsub, if_false, decide_false, ih]
        rfl

/-- The active slots are the first ones of the table and hold the given subscriptions. -/
structure Holds (b : Bus P) (subs : List (Subscription P)) : Prop where
  table : b.subscriptions = subs.map some ++ List.replicate (maxSubscriptions - subs.length) none
  count : b.count = subs.length
  aoId_lt : ∀ sub ∈ subs, sub.aoId < aoCount

variable {b : Bus P} {subs : List (Subscription P)}

theorem init_holds : (init : Bus P).Holds [] := ⟨rfl, rfl, by simp⟩

theorem Holds.length_le (h : b.Holds subs) : subs.length ≤ maxSubscriptions := by
  have hlength := b.length_eq
  rw [h.table, List.length_append, List.length_map, List.length_replicate] at hlength
  omega

theorem Holds.countP_eq (h : b.Holds subs) : b.subscriptions.countP Option.isSome = b.count := by
  rw [h.table, h.count, List.countP_append, List.countP_map, List.countP_replicate]
  simp [Function.comp_def]

theorem Holds.findIdx_eq (h : b.Holds subs) (hroom : subs.length < maxSubscriptions) :
    b.subscriptions.findIdx? Option.isNone = some subs.length := by
  obtain ⟨n, hn⟩ : ∃ n, maxSubscriptions - subs.length = n + 1 :=
    ⟨maxSubscriptions - subs.length - 1, by omega⟩
  have hactive : (subs.map some).findIdx? Option.isNone = none := by
    simp [List.findIdx?_eq_none_iff]
  rw [h.table, hn, List.findIdx?_append, hactive, List.replicate_succ, List.findIdx?_cons]
  simp

/-- A subscription with valid arguments takes the first slot that is not active. -/
theorem Holds.subscribe (h : b.Holds subs) {aoId : ℕ} (postFn : P) (module : ℕ) (event : BusEvent)
    (hid : aoId < aoCount) (hroom : subs.length < maxSubscriptions) :
    (b.subscribe aoId (some postFn) module (some event)).1 = .successful ∧
      (b.subscribe aoId (some postFn) module (some event)).2.Holds
        (subs ++ [⟨postFn, event, aoId, module⟩]) := by
  have hcount : ¬ maxSubscriptions ≤ b.count := by
    rw [h.count]
    omega
  have hstatus : b.subscribe aoId (some postFn) module (some event) = (.successful,
      { subscriptions := b.subscriptions.set subs.length (some ⟨postFn, event, aoId, module⟩)
        count := b.count + 1
        length_eq := List.length_set.trans b.length_eq }) := by
    simp only [Bus.subscribe, if_neg (Nat.not_le.mpr hid), if_neg hcount, h.findIdx_eq hroom]
  rw [hstatus]
  refine ⟨rfl, ?_, ?_, ?_⟩
  · obtain ⟨n, hn⟩ : ∃ n, maxSubscriptions - subs.length = n + 1 :=
      ⟨maxSubscriptions - subs.length - 1, by omega⟩
    have hrest : maxSubscriptions - (subs.length + 1) = n := by omega
    dsimp only
    rw [h.table, List.set_append_right _ _ (by simp), hn]
    simp [hrest, List.replicate_succ]
  · simp [h.count]
  · intro sub hsub
    rcases List.mem_append.mp hsub with hold | hnew
    · exact h.aoId_lt sub hold
    · rw [List.mem_singleton.mp hnew]
      exact hid

theorem Holds.subscribe_refused (h : b.Holds subs) {aoId : ℕ} {postFn : Option P} (module : ℕ)
    {event : Option BusEvent}
    (hbad : ¬ (aoId < aoCount ∧ postFn.isSome ∧ event.isSome ∧ subs.length < maxSubscriptions)) :
    (b.subscribe aoId postFn module event).1 ≠ .successful ∧
      (b.subscribe aoId postFn module event).2 = b := by
  by_cases hid : aoCount ≤ aoId
  · simp [Bus.subscribe, hid]
  · cases postFn with
    | none => simp [Bus.subscribe, hid]
    | some postFn =>
      cases event with
      | none => simp [Bus.subscribe, hid]
      | some event =>
        have hfull : maxSubscriptions ≤ b.count := by
          rw [h.count]
          simp only [Option.isSome_some, true_and, not_and, Nat.not_lt] at hbad
          exact hbad (Nat.not_le.mp hid)
        simp [Bus.subscribe, hid, hfull]

/-- Publishing calls the post function of each subscription to the event, in the order of the
table. -/
theorem Holds.publish (h : b.Holds subs) (post : P → ℕ → BusEvent → σ → Status × σ)
    (aoId type : ℕ) (s : σ) :
    (b.publish post aoId type s).2 = callEach post (routed subs aoId type) s := by
  unfold Bus.publish
  split_ifs with hid
  · have hnone : routed subs aoId type = [] := by
      rw [routed, List.filter_eq_nil_iff]
      intro sub hsub hmatches
      have hlt := h.aoId_lt sub hsub
      rw [(of_decide_eq_true hmatches).1] at hlt
      omega
    rw [hnone]
    rfl
  · have hactive : b.subscriptions.reduceOption = subs := by
      rw [h.table, List.reduceOption_append, List.reduceOption_replicate_none, List.append_nil]
      simp [List.reduceOption]
    have hcalls := notify_calls post aoId type b.subscriptions false s
    rw [hactive] at hcalls
    split <;> simp_all

end Bus

inductive BusCall (P : Type*) where
  | subscribe (aoId : ℕ) (postFn : Option P) (module : ℕ) (event : Option BusEvent)
  | publish (aoId type : ℕ)

/-- The bus with the subscriptions that were successful, in order, and what the post functions
act on. -/
structure Routing (P σ : Type*) where
  bus : Bus P
  subscribed : List (Subscription P)
  world : σ

namespace Routing

def apply (post : P → ℕ → BusEvent → σ → Status × σ) (s : Routing P σ) :
    BusCall P → Routing P σ
  | .subscribe aoId postFn module event =>
    { s with
      bus := (s.bus.subscribe aoId postFn module event).2
      subscribed :=
        match (s.bus.subscribe aoId postFn module event).1, postFn, event with
        | .successful, some postFn, some event =>
          s.subscribed ++ [⟨postFn, event, aoId, module⟩]
        | _, _, _ => s.subscribed }
  | .publish aoId type => { s with world := (s.bus.publish post aoId type s.world).2 }

def after (post : P → ℕ → BusEvent → σ → Status × σ) (world : σ) (calls : List (BusCall P)) :
    Routing P σ :=
  calls.foldl (apply post) ⟨Bus.init, [], world⟩

variable {post : P → ℕ → BusEvent → σ → Status × σ}

theorem apply_holds {s : Routing P σ} (h : s.bus.Holds s.subscribed) (call : BusCall P) :
    (s.apply post call).bus.Holds (s.apply post call).subscribed := by
  cases call with
  | publish aoId type => exact h
  | subscribe aoId postFn module event =>
    by_cases hok : aoId < aoCount ∧ postFn.isSome ∧ event.isSome ∧
        s.subscribed.length < maxSubscriptions
    · obtain ⟨hid, hfn, hevent, hroom⟩ := hok
      obtain ⟨postFn, rfl⟩ := Option.isSome_iff_exists.mp hfn
      obtain ⟨event, rfl⟩ := Option.isSome_iff_exists.mp hevent
      obtain ⟨hstatus, hholds⟩ := h.subscribe postFn module event hid hroom
      simpa only [apply, hstatus] using hholds
    · obtain ⟨hstatus, hsame⟩ := h.subscribe_refused module hok
      simp only [apply, hsame]
      split
      · rename_i hsuccessful
        exact absurd hsuccessful hstatus
      · exact h

theorem after_holds (world : σ) (calls : List (BusCall P)) :
    (after post world calls).bus.Holds (after post world calls).subscribed := by
  induction calls using List.reverseRecOn with
  | nil => exact Bus.init_holds
  | append_singleton calls call ih =>
    rw [after, List.foldl_append]
    exact apply_holds ih call

/-- After any history of calls the active slots are the first ones of the table and the counter is
their number; a subscription with valid arguments is accepted if and only if there were fewer than
`eEVENT_BUS_MAX_SUBSCRIPTIONS`, and one that is not accepted changes nothing; and publishing calls
the post function of every subscription to the event once, in the order in which they were made. -/
theorem routing_follows_subscriptions (post : P → ℕ → BusEvent → σ → Status × σ) (world : σ)
    (calls : List (BusCall P)) :
    let s := after post world calls
    s.bus.count = s.bus.subscriptions.countP Option.isSome ∧
      s.bus.subscriptions =
        s.subscribed.map some ++ List.replicate (maxSubscriptions - s.subscribed.length) none ∧
      (∀ aoId postFn module event, aoId < aoCount →
        ((s.bus.subscribe aoId (some postFn) module (some event)).1 = .successful ↔
          s.subscribed.length < maxSubscriptions)) ∧
      (∀ aoId postFn module event, (s.bus.subscribe aoId postFn module event).1 ≠ .successful →
        (s.bus.subscribe aoId postFn module event).2 = s.bus) ∧
      ∀ aoId type, (s.bus.publish post aoId type s.world).2 =
        callEach post (routed s.subscribed aoId type) s.world := by
  intro s
  have hholds : s.bus.Holds s.subscribed := after_holds world calls
  refine ⟨hholds.countP_eq.symm, hholds.table, ?_, ?_, fun aoId type => hholds.publish post _ _ _⟩
  · intro aoId postFn module event hid
    constructor
    · intro hstatus
      by_contra hfull
      exact (hholds.subscribe_refused module fun hok => hfull hok.2.2.2).1 hstatus
    · exact fun hroom => (hholds.subscribe postFn module event hid hroom).1
  · intro aoId postFn module event hstatus
    refine (hholds.subscribe_refused module fun hok => hstatus ?_).2
    obtain ⟨hid, hfn, hevent, hroom⟩ := hok
    obtain ⟨postFn, rfl⟩ := Option.isSome_iff_exists.mp hfn
    obtain ⟨event, rfl⟩ := Option.isSome_iff_exists.mp hevent
    exact (hholds.subscribe postFn module event hid hroom).1

end Routing

end SnipeIt.Util
