import SnipeIt.ActiveObject.Machines
import SnipeIt.Status
import SnipeIt.Support.Ring

/-! # The event bus

A table of subscriptions. Publishing an event calls the post function of every
subscription to it, which goes through the subscriber's layer and module down to
the bounded queue of its active object.
-/

namespace SnipeIt.Util
open Support ActiveObject

structure BusEvent where
  type : ℕ
  deriving DecidableEq

def maxSubscriptions : ℕ := 32

def aoCount : ℕ := 6

/-- A subscription with a post function of `P`. -/
structure Subscription (P : Type*) where
  postFn : P
  event : BusEvent
  aoId : ℕ
  module : ℕ

/-- The table of subscriptions, with `none` in the slots that are not active. -/
structure Bus (P : Type*) where
  subscriptions : List (Option (Subscription P))
  count : ℕ
  length_eq : subscriptions.length = maxSubscriptions

namespace Subscription

variable {P : Type*}

def Matches (sub : Subscription P) (aoId type : ℕ) : Prop :=
  sub.aoId = aoId ∧ sub.event.type = type

instance (sub : Subscription P) (aoId type : ℕ) : Decidable (sub.Matches aoId type) :=
  inferInstanceAs (Decidable (_ ∧ _))

end Subscription

namespace Bus

variable {P σ : Type*}

def init : Bus P := ⟨List.replicate maxSubscriptions none, 0, List.length_replicate⟩

def subscribe (b : Bus P) (aoId : ℕ) (postFn : Option P) (module : ℕ) (event : Option BusEvent) :
    Status × Bus P :=
  if aoCount ≤ aoId then (.invalidValue, b)
  else
    match postFn, event with
    | some postFn, some event =>
      if maxSubscriptions ≤ b.count then (.actionFailed, b)
      else
        match b.subscriptions.findIdx? Option.isNone with
        | some i =>
          (.successful,
            { subscriptions := b.subscriptions.set i (some ⟨postFn, event, aoId, module⟩)
              count := b.count + 1
              length_eq := List.length_set.trans b.length_eq })
        | none => (.actionFailed, b)
    | _, _ => (.nullParam, b)

/-- The loop of `util_event_bus_publish`. What a post function answers is not looked at. -/
def notify (post : P → ℕ → BusEvent → σ → Status × σ) (aoId type : ℕ) :
    List (Option (Subscription P)) → Bool → σ → Bool × σ
  | [], matched, s => (matched, s)
  | none :: slots, matched, s => notify post aoId type slots matched s
  | some sub :: slots, matched, s =>
    if sub.Matches aoId type then
      notify post aoId type slots true (post sub.postFn sub.module sub.event s).2
    else notify post aoId type slots matched s

def publish (post : P → ℕ → BusEvent → σ → Status × σ) (b : Bus P) (aoId type : ℕ) (s : σ) :
    Status × σ :=
  if aoCount ≤ aoId then (.invalidValue, s)
  else
    match notify post aoId type b.subscriptions false s with
    | (true, s') => (.successful, s')
    | (false, s') => (.actionFailed, s')

def HasMatch (b : Bus P) (aoId type : ℕ) : Prop :=
  ∃ sub, some sub ∈ b.subscriptions ∧ sub.Matches aoId type

/-- The first of some subscriptions is not the one. -/
theorem exists_mem_cons_iff {p : Subscription P → Prop} {sub : Subscription P}
    {slots : List (Option (Subscription P))} (h : ¬ p sub) :
    (∃ other, some other ∈ some sub :: slots ∧ p other) ↔
      ∃ other, some other ∈ slots ∧ p other := by
  constructor
  · rintro ⟨other, hmem, hother⟩
    rcases List.mem_cons.mp hmem with heq | hmem
    · cases heq
      exact absurd hother h
    · exact ⟨other, hmem, hother⟩
  · rintro ⟨other, hmem, hother⟩
    exact ⟨other, List.mem_cons_of_mem _ hmem, hother⟩

theorem notify_matched (post : P → ℕ → BusEvent → σ → Status × σ) (aoId type : ℕ)
    (slots : List (Option (Subscription P))) (matched : Bool) (s : σ) :
    (notify post aoId type slots matched s).1 = true ↔
      matched = true ∨ ∃ sub, some sub ∈ slots ∧ sub.Matches aoId type := by
  induction slots generalizing matched s with
  | nil => simp [notify]
  | cons slot slots ih =>
    cases slot with
    | none => simp [notify, ih]
    | some sub =>
      by_cases hsub : sub.Matches aoId type
      · rw [notify, if_pos hsub, ih]
        exact iff_of_true (.inl rfl) (.inr ⟨sub, List.mem_cons_self .., hsub⟩)
      · rw [notify, if_neg hsub, ih, exists_mem_cons_iff hsub]

/-- Publishing reports success when there is a subscription to the event. -/
theorem publish_successful_iff {post : P → ℕ → BusEvent → σ → Status × σ} {b : Bus P}
    {aoId type : ℕ} {s : σ} :
    (b.publish post aoId type s).1 = .successful ↔ aoId < aoCount ∧ b.HasMatch aoId type := by
  have hmatched := notify_matched post aoId type b.subscriptions false s
  unfold publish HasMatch
  split_ifs with hid
  · simp [hid]
  · rw [← not_le, and_iff_right hid]
    simp only [Bool.false_eq_true, false_or] at hmatched
    rw [← hmatched]
    split
    · rename_i hnotify
      simp [hnotify]
    · rename_i hnotify
      simp [hnotify]

end Bus

/-! ## Posting to an active object -/

/-- The event queue of an active object, or `none` where it has no buffer. -/
abbrev EventQueue := Option (Ring BusEvent 4)

namespace EventQueue

def push (q : EventQueue) (event : BusEvent) : Status × EventQueue :=
  match q with
  | none => (.nullParam, none)
  | some ring =>
    if h : ring.count < 4 then (.successful, some (ring.put event h))
    else (.actionFailed, some ring)

def size (q : EventQueue) : ℕ := q.elim 0 Ring.count

def HasRoom (q : EventQueue) : Prop := ∃ ring ∈ q, ring.count < 4

instance (q : EventQueue) : Decidable q.HasRoom := inferInstanceAs (Decidable (∃ _ ∈ _, _))

theorem push_size {q : EventQueue} {event : BusEvent} :
    (q.push event).2.size = q.size + if q.HasRoom then 1 else 0 := by
  cases q with
  | none => simp [push, HasRoom, size]
  | some ring =>
    unfold push
    dsimp only
    split_ifs with hcount hroom hroom
    · rfl
    · exact absurd ⟨ring, rfl, hcount⟩ hroom
    · obtain ⟨other, hother, hlt⟩ := hroom
      cases hother
      exact absurd hlt hcount
    · rfl

theorem push_full {q : EventQueue} {event : BusEvent} (h : ¬ q.HasRoom) :
    (q.push event).2 = q := by
  cases q with
  | none => rfl
  | some ring =>
    have hcount : ¬ ring.count < 4 := fun hlt => h ⟨ring, rfl, hlt⟩
    simp [push, hcount]

end EventQueue

abbrev Queues := Module → EventQueue

def activeObjectPost (m : Module) (event : BusEvent) (queues : Queues) : Status × Queues :=
  ((if ((queues m).push event).1 = .successful then .successful else .actionFailed),
    Function.update queues m ((queues m).push event).2)

/-- The layer whose post function a subscription has. -/
inductive Layer where
  | app | ddl
  deriving DecidableEq

def Layer.modules : Layer → List Module
  | .app => appModules
  | .ddl => ddlModules

def Layer.post (layer : Layer) (module : ℕ) (event : BusEvent) (queues : Queues) :
    Status × Queues :=
  match layer.modules[module]? with
  | none => (.invalidValue, queues)
  | some m => activeObjectPost m event queues

def Subscription.target (sub : Subscription Layer) : Option Module :=
  sub.postFn.modules[sub.module]?

/-- A subscription that can be notified. -/
def Subscription.Reaches (sub : Subscription Layer) (queues : Queues) : Prop :=
  ∃ m ∈ sub.target, (queues m).HasRoom

def Accepted (before after : Queues) : Prop := ∃ m, (before m).size < (after m).size

theorem post_size (layer : Layer) (module : ℕ) (event : BusEvent) (queues : Queues) (m : Module) :
    (queues m).size ≤ ((layer.post module event queues).2 m).size := by
  unfold Layer.post
  split
  · exact le_rfl
  · rename_i target _
    by_cases hm : m = target
    · subst hm
      simp [activeObjectPost, EventQueue.push_size]
    · simp [activeObjectPost, hm]

theorem post_unreached {sub : Subscription Layer} {queues : Queues} (h : ¬ sub.Reaches queues)
    (event : BusEvent) : (sub.postFn.post sub.module event queues).2 = queues := by
  unfold Layer.post
  split
  · rfl
  · rename_i m hm
    have hroom : ¬ (queues m).HasRoom := fun hroom => h ⟨m, hm, hroom⟩
    rw [activeObjectPost, EventQueue.push_full hroom, Function.update_eq_self]

theorem post_reached {sub : Subscription Layer} {queues : Queues} (h : sub.Reaches queues)
    (event : BusEvent) : Accepted queues (sub.postFn.post sub.module event queues).2 := by
  obtain ⟨m, hm, hroom⟩ := h
  have htarget : sub.postFn.modules[sub.module]? = some m := hm
  refine ⟨m, ?_⟩
  simp [Layer.post, htarget, activeObjectPost, EventQueue.push_size, hroom]

namespace Bus

theorem notify_size (aoId type : ℕ) (slots : List (Option (Subscription Layer))) (matched : Bool)
    (queues : Queues) (m : Module) :
    (queues m).size ≤ ((notify Layer.post aoId type slots matched queues).2 m).size := by
  induction slots generalizing matched queues with
  | nil => exact le_rfl
  | cons slot slots ih =>
    cases slot with
    | none => exact ih matched queues
    | some sub =>
      rw [notify]
      split_ifs
      · exact (post_size _ _ _ _ m).trans (ih true _)
      · exact ih matched queues

/-- Some queue accepts the event exactly when a subscriber could be notified to begin with: later
posts only find less room. -/
theorem notify_accepted (aoId type : ℕ) (slots : List (Option (Subscription Layer)))
    (matched : Bool) (queues : Queues) :
    Accepted queues (notify Layer.post aoId type slots matched queues).2 ↔
      ∃ sub, some sub ∈ slots ∧ sub.Matches aoId type ∧ sub.Reaches queues := by
  induction slots generalizing matched queues with
  | nil => simp [notify, Accepted]
  | cons slot slots ih =>
    cases slot with
    | none =>
      rw [notify, ih]
      simp
    | some sub =>
      by_cases hsub : sub.Matches aoId type
      · rw [notify, if_pos hsub]
        by_cases hreaches : sub.Reaches queues
        · obtain ⟨m, hm⟩ := post_reached hreaches sub.event
          exact iff_of_true ⟨m, hm.trans_le (notify_size aoId type slots true _ m)⟩
            ⟨sub, List.mem_cons_self .., hsub, hreaches⟩
        · rw [post_unreached hreaches, ih, exists_mem_cons_iff fun h => hreaches h.2]
      · rw [notify, if_neg hsub, ih, exists_mem_cons_iff fun h => hsub h.1]

/-- Some subscription to the event can be notified. -/
def Reaches (b : Bus Layer) (aoId type : ℕ) (queues : Queues) : Prop :=
  ∃ sub, some sub ∈ b.subscriptions ∧ sub.Matches aoId type ∧ sub.Reaches queues

theorem publish_accepted_iff {b : Bus Layer} {aoId type : ℕ} {queues : Queues} :
    Accepted queues (b.publish Layer.post aoId type queues).2 ↔
      aoId < aoCount ∧ b.Reaches aoId type queues := by
  unfold publish Reaches
  split_ifs with hid
  · simp [Accepted, hid]
  · rw [← notify_accepted aoId type b.subscriptions false queues, ← not_le, and_iff_right hid]
    split <;> simp [*]

end Bus

/-- Publishing: the status is `eSTATUS_SUCCESSFUL` exactly when some queue accepted the event, for
exactly the tables and queues where there is no subscription to the event, or one that can be
notified. -/
theorem publish_truthful_iff (b : Bus Layer) (aoId type : ℕ) (queues : Queues) :
    ((b.publish Layer.post aoId type queues).1 = .successful ↔
        Accepted queues (b.publish Layer.post aoId type queues).2) ↔
      (aoId < aoCount → b.HasMatch aoId type → b.Reaches aoId type queues) := by
  have hreaches : b.Reaches aoId type queues → b.HasMatch aoId type :=
    fun ⟨sub, hmem, hmatches, _⟩ => ⟨sub, hmem, hmatches⟩
  rw [Bus.publish_successful_iff, Bus.publish_accepted_iff]
  tauto

/-- The bus with the one subscription of the GPS, to `eGPS_EVENT_READ`. -/
def gpsBus : Bus Layer := (Bus.init.subscribe 4 (some .ddl) 3 (some ⟨4⟩)).2

def fullQueues : Queues := fun _ => some ⟨fun _ => ⟨4⟩, 0, 0, 4, by decide, le_rfl, rfl⟩

theorem full_queue_published :
    (gpsBus.publish Layer.post 4 4 fullQueues).1 = .successful ∧
      ¬ Accepted fullQueues (gpsBus.publish Layer.post 4 4 fullQueues).2 := by
  refine ⟨by decide, ?_⟩
  rintro ⟨m, hm⟩
  cases m <;> revert hm <;> decide

end SnipeIt.Util
