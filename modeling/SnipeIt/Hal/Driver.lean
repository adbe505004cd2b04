import SnipeIt.Hal.Uart
import SnipeIt.Status
import SnipeIt.Support.Run

/-! # Slots and ring entries

The UART driver with the entries of the submission ring, which keep their user
data when they are used again, with the answers of its functions, and with a
number for each read and write, so that it can be said whose slot and whose
callback it is.
-/

namespace SnipeIt.Hal
open Support

def Device.ofIndex : ℕ → Option Device
  | 0 => some .uart0
  | 1 => some .uart1
  | 2 => some .uart2
  | _ => none

def Device.index : Device → ℕ
  | .uart0 => 0
  | .uart1 => 1
  | .uart2 => 2

@[simp] theorem Device.ofIndex_index (device : Device) :
    Device.ofIndex device.index = some device := by
  cases device <;> rfl

/-- An entry of the ring with its user data, and the number of the read or write in it, if it is
not a cancellation. -/
structure RingEntry where
  data : Option SlotRef
  operation : Option ℕ
  deriving DecidableEq

def RingEntry.refersTo (ref : SlotRef) (entry : RingEntry) : Bool :=
  entry.operation.isSome && decide (entry.data = some ref)

/-- A callback that the completion of an operation ran, with the operation that left it there. -/
structure Callback (κ : Type*) where
  completed : ℕ
  owner : ℕ
  callback : κ

/-- The driver. A slot keeps a callback with the number of its operation. -/
structure Driver (κ : Type*) where
  slots : SlotRef → OpSlot (ℕ × κ)
  /-- The user data of the places of the ring. -/
  userData : ℕ → Option SlotRef
  tail : ℕ
  prepared : List RingEntry
  inflight : List RingEntry
  operations : ℕ
  ran : List (Callback κ)

/-- A call into the driver, or the completion of an entry. -/
inductive DriverAct (κ : Type*) where
  | write (device : ℕ) (buffer : Bool) (callback : Option κ) (submits : Bool)
  | read (device : ℕ) (buffer : Bool) (callback : Option κ) (submits : Bool)
  | abort (device : ℕ) (submits : Bool)
  | complete (n : ℕ) (positive : Bool)

namespace Driver

variable {κ : Type*}

def init : Driver κ := ⟨fun _ => ⟨none, false⟩, fun _ => none, 0, [], [], 0, []⟩

def setSlot (d : Driver κ) (ref : SlotRef) (slot : OpSlot (ℕ × κ)) : Driver κ :=
  { d with slots := Function.update d.slots ref slot }

def allocateSlot (d : Driver κ) (device : Device) : Option (Fin maxQueuedOperations) :=
  (List.finRange maxQueuedOperations).find? fun i => !(d.slots (device, i)).used

def freeSlot (d : Driver κ) (ref : SlotRef) : Driver κ :=
  d.setSlot ref { d.slots ref with used := false }

/-- `io_uring_get_sqe` on a ring of so many entries: the place of the entry. -/
def getSqe (entries : ℕ) (d : Driver κ) : Option (ℕ × Driver κ) :=
  if d.prepared.length < entries then some (d.tail % entries, { d with tail := d.tail + 1 })
  else none

def setData (d : Driver κ) (place : ℕ) (ref : SlotRef) : Driver κ :=
  { d with userData := Function.update d.userData place (some ref) }

/-- `io_uring_prep_read`, `io_uring_prep_write` and `io_uring_prep_cancel_fd`. -/
def prep (d : Driver κ) (place : ℕ) (operation : Option ℕ) : Driver κ :=
  { d with prepared := d.prepared ++ [⟨d.userData place, operation⟩] }

/-- `io_uring_submit`, which submits everything prepared or fails and submits nothing. -/
def submit (d : Driver κ) (submits : Bool) : Driver κ :=
  if submits then { d with prepared := [], inflight := d.inflight ++ d.prepared } else d

/-- `hal_uart_write` and `hal_uart_read`, which differ in the direction of the transfer. -/
def transfer (entries : ℕ) (d : Driver κ) (device : ℕ) (buffer : Bool) (callback : Option κ)
    (submits : Bool) : Status × Driver κ :=
  match Device.ofIndex device with
  | none => (.invalidValue, d)
  | some device =>
    if buffer = false then (.nullParam, d)
    else
      match d.allocateSlot device with
      | none => (.actionFailed, d)
      | some i =>
        let number := d.operations
        let d := { d.setSlot (device, i) ⟨callback.map (number, ·), true⟩ with
          operations := number + 1 }
        match d.getSqe entries with
        | none => (.systemError, d.freeSlot (device, i))
        | some (place, d) =>
          let d := ((d.setData place (device, i)).prep place (some number)).submit submits
          if submits then (.successful, d) else (.systemError, d.freeSlot (device, i))

def abort (entries : ℕ) (d : Driver κ) (device : ℕ) (submits : Bool) : Status × Driver κ :=
  match Device.ofIndex device with
  | none => (.invalidValue, d)
  | some _ =>
    match d.getSqe entries with
    | none => (.systemError, d)
    | some (place, d) =>
      (if submits then .successful else .systemError, (d.prep place none).submit submits)

def called (d : Driver κ) (entry : RingEntry) (ref : SlotRef) (positive : Bool) :
    List (Callback κ) :=
  match positive, entry.operation, (d.slots ref).callback with
  | true, some number, some (owner, callback) => [⟨number, owner, callback⟩]
  | _, _, _ => []

/-- `io_completion_thread` on the completion of entry `n`. Only a read or a write has a positive
result. -/
def complete (d : Driver κ) (n : ℕ) (positive : Bool) : Option (Driver κ) :=
  match d.inflight[n]? with
  | none => none
  | some entry =>
    if positive = true ∧ entry.operation = none then none
    else
      match entry.data with
      | none => some { d with inflight := d.inflight.eraseIdx n }
      | some ref =>
        some ({ d with
          inflight := d.inflight.eraseIdx n
          ran := d.ran ++ d.called entry ref positive }.freeSlot ref)

/-- The driver after a call, with its answer, or after a completion. -/
def apply (entries : ℕ) (d : Driver κ) : DriverAct κ → Option (Status × Driver κ)
  | .write device buffer callback submits =>
    some (d.transfer entries device buffer callback submits)
  | .read device buffer callback submits =>
    some (d.transfer entries device buffer callback submits)
  | .abort device submits => some (d.abort entries device submits)
  | .complete n positive => (d.complete n positive).map (.successful, ·)

def Step (entries : ℕ) (d : Driver κ) (act : DriverAct κ) (e : Driver κ) : Prop :=
  ∃ status, d.apply entries act = some (status, e)

def outstanding (d : Driver κ) : List ℕ := (d.inflight ++ d.prepared).filterMap (·.operation)

/-- Every used slot belongs to exactly one read or write in flight, and no other slot to any; every
callback ran on the completion of its own operation, and at most once. -/
structure Exact (d : Driver κ) : Prop where
  used : ∀ ref, d.inflight.countP (·.refersTo ref) = if (d.slots ref).used then 1 else 0
  own : ∀ r ∈ d.ran, r.owner = r.completed
  once : (d.ran.map (·.owner)).Nodup

/-- A slot becomes free by the completion of the operation that has it. -/
def FreedByOwn (d : Driver κ) (act : DriverAct κ) (e : Driver κ) : Prop :=
  ∀ ref, (d.slots ref).used = true → (e.slots ref).used = false →
    ∃ n positive, act = .complete n positive ∧ ∃ entry, d.inflight[n]? = some entry ∧
      entry.refersTo ref = true

/-- A call that fails leaves the slots and the outstanding operations as they were. -/
def FailsClean (entries : ℕ) (d : Driver κ) (act : DriverAct κ) (e : Driver κ) : Prop :=
  ∀ status, d.apply entries act = some (status, e) → status ≠ .successful →
    (∀ ref, (e.slots ref).used = (d.slots ref).used ∧
      ((d.slots ref).used = true → e.slots ref = d.slots ref)) ∧
    e.outstanding = d.outstanding

def SlotsExact (entries : ℕ) (d : Driver κ) (act : DriverAct κ) (e : Driver κ) : Prop :=
  e.Exact ∧ FreedByOwn d act e ∧ FailsClean entries d act e

/-- A read or a write that has got a slot and an entry is submitted. -/
def SubmitFits (entries : ℕ) (d : Driver κ) (device : ℕ) (buffer submits : Bool) : Prop :=
  ∀ dev, Device.ofIndex device = some dev → buffer = true →
    (d.allocateSlot dev).isSome = true → d.prepared.length < entries → submits = true

/-- No submission of a read or write fails, and no cancellation completes with the user data of a
slot that is in use. -/
def Fits (entries : ℕ) (d : Driver κ) : DriverAct κ → Prop
  | .write device buffer _ submits => d.SubmitFits entries device buffer submits
  | .read device buffer _ submits => d.SubmitFits entries device buffer submits
  | .abort _ _ => True
  | .complete n _ => ∀ entry, d.inflight[n]? = some entry → entry.operation = none →
      ∀ ref ∈ entry.data, (d.slots ref).used = false

instance (entries : ℕ) (d : Driver κ) (device : ℕ) (buffer submits : Bool) :
    Decidable (d.SubmitFits entries device buffer submits) :=
  inferInstanceAs (Decidable (∀ dev ∈ Device.ofIndex device, _ → _ → _ → _ = _))

instance (entries : ℕ) (d : Driver κ) : DecidablePred (d.Fits entries)
  | .write device buffer _ submits =>
    inferInstanceAs (Decidable (d.SubmitFits entries device buffer submits))
  | .read device buffer _ submits =>
    inferInstanceAs (Decidable (d.SubmitFits entries device buffer submits))
  | .abort _ _ => inferInstanceAs (Decidable True)
  | .complete n _ =>
    inferInstanceAs (Decidable (∀ entry ∈ d.inflight[n]?, _ = _ → ∀ ref ∈ _, _ = _))

/-! ## What a call does -/

variable {d e : Driver κ} {entries : ℕ}

/-- A slot taken by a read or write, and its callback. -/
def taken (d : Driver κ) (ref : SlotRef) (callback : Option κ) (used : Bool) :
    SlotRef → OpSlot (ℕ × κ) :=
  Function.update d.slots ref ⟨callback.map (d.operations, ·), used⟩

inductive Transferred (entries : ℕ) (d : Driver κ) (device : ℕ) (buffer : Bool)
    (callback : Option κ) (submits : Bool) : Status × Driver κ → Prop where
  | rejected {status} (hstatus : status ≠ .successful)
      (hrejected : ∀ dev, Device.ofIndex device = some dev → buffer = true →
        (d.allocateSlot dev).isSome = false) :
      Transferred entries d device buffer callback submits (status, d)
  | noEntry {dev i} (hslot : d.allocateSlot dev = some i) (hfull : entries ≤ d.prepared.length)
      (hdevice : Device.ofIndex device = some dev) :
      Transferred entries d device buffer callback submits (.systemError,
        { d with slots := d.taken (dev, i) callback false, operations := d.operations + 1 })
  | refused {dev i} (hslot : d.allocateSlot dev = some i) (hroom : d.prepared.length < entries)
      (hdevice : Device.ofIndex device = some dev) (hbuffer : buffer = true)
      (hsubmits : submits = false) :
      Transferred entries d device buffer callback submits (.systemError,
        { d with
          slots := d.taken (dev, i) callback false
          operations := d.operations + 1
          userData := Function.update d.userData (d.tail % entries) (some (dev, i))
          tail := d.tail + 1
          prepared := d.prepared ++ [⟨some (dev, i), some d.operations⟩] })
  | done {dev i} (hslot : d.allocateSlot dev = some i) (hroom : d.prepared.length < entries)
      (hdevice : Device.ofIndex device = some dev) (hsubmits : submits = true) :
      Transferred entries d device buffer callback submits (.successful,
        { d with
          slots := d.taken (dev, i) callback true
          operations := d.operations + 1
          userData := Function.update d.userData (d.tail % entries) (some (dev, i))
          tail := d.tail + 1
          prepared := []
          inflight := d.inflight ++ (d.prepared ++ [⟨some (dev, i), some d.operations⟩]) })

theorem transfer_transferred (device : ℕ) (buffer : Bool) (callback : Option κ) (submits : Bool) :
    Transferred entries d device buffer callback submits
      (d.transfer entries device buffer callback submits) := by
  unfold transfer
  cases hdevice : Device.ofIndex device with
  | none => exact .rejected (by simp) fun dev hdev => by simp [hdevice] at hdev
  | some dev =>
    cases buffer with
    | false => exact .rejected (by simp) fun _ _ h => by cases h
    | true =>
      dsimp only
      rw [if_neg (by simp)]
      cases hslot : d.allocateSlot dev with
      | none =>
        refine .rejected (by simp) fun dev' hdev' _ => ?_
        rw [hdevice] at hdev'
        cases hdev'
        simp [hslot]
      | some i =>
        by_cases hroom : d.prepared.length < entries
        · cases submits with
          | true =>
            simp only [getSqe, setSlot, hroom, setData, prep, submit, if_true,
              Function.update_self]
            exact .done hslot hroom hdevice rfl
          | false =>
            simp only [getSqe, setSlot, hroom, setData, prep, submit, if_true,
              Function.update_self, freeSlot, Function.update_idem, Bool.false_eq_true, if_false]
            exact .refused hslot hroom hdevice rfl rfl
        · simp only [getSqe, setSlot, hroom, if_false, freeSlot, Function.update_self,
            Function.update_idem]
          exact .noEntry hslot (Nat.le_of_not_lt hroom) hdevice

theorem allocateSlot_unused {dev : Device} {i : Fin maxQueuedOperations}
    (h : d.allocateSlot dev = some i) : (d.slots (dev, i)).used = false := by
  simpa using List.find?_some h

def transfers (d : Driver κ) : List RingEntry := d.inflight.filter (·.operation.isSome)

theorem countP_transfers (d : Driver κ) (ref : SlotRef) :
    d.transfers.countP (·.refersTo ref) = d.inflight.countP (·.refersTo ref) := by
  rw [transfers, List.countP_filter]
  refine List.countP_congr fun entry _ => ?_
  cases h : entry.operation <;> simp [RingEntry.refersTo, h]

theorem filterMap_transfers (l : List RingEntry) :
    (l.filter (·.operation.isSome)).filterMap (·.operation) = l.filterMap (·.operation) := by
  induction l with
  | nil => rfl
  | cons entry l ih =>
    cases h : entry.operation with
    | none => simp [h, ih]
    | some number => simp [h, ih]

/-- What the driver keeps: each operation in flight owns its slot and has not been called back. -/
structure Owned (d : Driver κ) : Prop where
  exact : d.Exact
  prepared : ∀ entry ∈ d.prepared, entry.operation = none
  owner : ∀ entry ∈ d.transfers, ∀ number ∈ entry.operation,
    ∃ ref, entry.data = some ref ∧ ∀ c ∈ (d.slots ref).callback, c.1 = number
  young : ∀ number ∈ d.transfers.filterMap (·.operation), number < d.operations
  old : ∀ r ∈ d.ran, r.owner < d.operations
  distinct : (d.transfers.filterMap (·.operation)).Nodup
  waiting : ∀ number ∈ d.transfers.filterMap (·.operation), number ∉ d.ran.map (·.owner)

theorem init_owned : Owned (init : Driver κ) where
  exact := ⟨fun _ => rfl, fun _ h => (List.not_mem_nil h).elim, List.nodup_nil⟩
  prepared _ h := (List.not_mem_nil h).elim
  owner _ h := (List.not_mem_nil h).elim
  young _ h := (List.not_mem_nil h).elim
  old _ h := (List.not_mem_nil h).elim
  distinct := List.nodup_nil
  waiting _ h := (List.not_mem_nil h).elim

theorem Owned.outstanding_eq (h : d.Owned) :
    d.outstanding = d.transfers.filterMap (·.operation) := by
  have hprepared : d.prepared.filterMap (·.operation) = [] :=
    List.filterMap_eq_nil_iff.mpr h.prepared
  rw [outstanding, List.filterMap_append, hprepared, List.append_nil, transfers,
    filterMap_transfers]

theorem Owned.used_of_mem (h : d.Owned) {entry : RingEntry} (hmem : entry ∈ d.transfers)
    {ref : SlotRef} (href : entry.data = some ref) : (d.slots ref).used = true := by
  have hoperation : entry.operation.isSome = true := (List.mem_filter.mp hmem).2
  have hpos : 0 < d.inflight.countP (·.refersTo ref) := by
    rw [← countP_transfers]
    exact List.countP_pos_iff.mpr ⟨entry, hmem, by simp [RingEntry.refersTo, hoperation, href]⟩
  rw [h.exact.used] at hpos
  by_contra hused
  simp [hused] at hpos

/-- The operations in flight and their slots are left alone. -/
structure Same (d e : Driver κ) : Prop where
  transfers : e.transfers = d.transfers
  prepared : ∀ entry ∈ e.prepared, entry.operation = none
  used : ∀ ref, (e.slots ref).used = (d.slots ref).used
  slots : ∀ ref, (d.slots ref).used = true → e.slots ref = d.slots ref
  operations : d.operations ≤ e.operations
  ran : e.ran = d.ran

theorem Owned.same (h : d.Owned) (hsame : Same d e) : e.Owned := by
  refine ⟨⟨fun ref => ?_, ?_, ?_⟩, hsame.prepared, fun entry hmem number hnumber => ?_,
    fun number hmem => ?_, fun r hr => ?_, ?_, fun number hmem => ?_⟩
  · rw [← countP_transfers, hsame.transfers, countP_transfers, hsame.used, h.exact.used]
  · exact hsame.ran ▸ h.exact.own
  · exact hsame.ran ▸ h.exact.once
  · rw [hsame.transfers] at hmem
    obtain ⟨ref, href, howner⟩ := h.owner entry hmem number hnumber
    exact ⟨ref, href, by rwa [hsame.slots ref (h.used_of_mem hmem href)]⟩
  · rw [hsame.transfers] at hmem
    exact (h.young number hmem).trans_le hsame.operations
  · rw [hsame.ran] at hr
    exact (h.old r hr).trans_le hsame.operations
  · exact hsame.transfers ▸ h.distinct
  · rw [hsame.transfers] at hmem
    exact hsame.ran ▸ h.waiting number hmem

theorem taken_free_used {ref : SlotRef} {callback : Option κ} (h : (d.slots ref).used = false)
    (r : SlotRef) : (d.taken ref callback false r).used = (d.slots r).used := by
  by_cases hr : r = ref
  · subst hr
    simp [taken, h]
  · simp [taken, hr]

theorem taken_of_used {ref : SlotRef} {callback : Option κ} {used : Bool}
    (h : (d.slots ref).used = false) (r : SlotRef) (hr : (d.slots r).used = true) :
    d.taken ref callback used r = d.slots r := by
  have hne : r ≠ ref := by
    rintro rfl
    rw [h] at hr
    cases hr
  simp [taken, hne]

/-- A read or write that has no entry leaves everything in flight alone. -/
theorem Owned.noEntry (h : d.Owned) {ref : SlotRef} {callback : Option κ}
    (hfree : (d.slots ref).used = false) :
    Same d { d with slots := d.taken ref callback false, operations := d.operations + 1 } :=
  ⟨rfl, h.prepared, taken_free_used hfree, taken_of_used hfree, Nat.le_succ _, rfl⟩

/-- A read or write that was submitted has its slot for itself. -/
theorem Owned.done (h : d.Owned) {ref : SlotRef} {callback : Option κ}
    (hfree : (d.slots ref).used = false) (userData : ℕ → Option SlotRef) :
    Owned { d with
      slots := d.taken ref callback true
      operations := d.operations + 1
      userData
      tail := d.tail + 1
      prepared := []
      inflight := d.inflight ++ (d.prepared ++ [⟨some ref, some d.operations⟩]) } := by
  have hprepared : d.prepared.filter (·.operation.isSome) = [] :=
    List.filter_eq_nil_iff.mpr fun entry hmem => by simp [h.prepared entry hmem]
  have htransfers : (d.inflight ++ (d.prepared ++ [RingEntry.mk (some ref) d.operations])).filter
      (·.operation.isSome) = d.transfers ++ [RingEntry.mk (some ref) d.operations] := by
    simp [List.filter_append, hprepared, transfers]
  have hfilterMap : (d.transfers ++ [RingEntry.mk (some ref) d.operations]).filterMap
      (·.operation) = d.transfers.filterMap (·.operation) ++ [d.operations] := by
    simp [List.filterMap_append]
  refine ⟨⟨fun r => ?_, h.exact.own, h.exact.once⟩, fun _ hmem => (List.not_mem_nil hmem).elim,
    fun entry hmem number hnumber => ?_, fun number hmem => ?_,
    fun r hr => (h.old r hr).trans (Nat.lt_succ_self _), ?_, fun number hmem => ?_⟩
  · rw [← countP_transfers, transfers, htransfers, List.countP_append, countP_transfers,
      h.exact.used]
    by_cases hr : r = ref
    · subst hr
      simp [taken, hfree, RingEntry.refersTo]
    · simp [taken, hr, RingEntry.refersTo, Ne.symm hr]
  · rw [transfers, htransfers] at hmem
    rcases List.mem_append.mp hmem with hold | hnew
    · obtain ⟨r, hr, howner⟩ := h.owner entry hold number hnumber
      refine ⟨r, hr, ?_⟩
      dsimp only
      rwa [taken_of_used hfree r (h.used_of_mem hold hr)]
    · rw [List.mem_singleton.mp hnew] at hnumber ⊢
      cases hnumber
      refine ⟨ref, rfl, fun c hc => ?_⟩
      simp only [taken, Function.update_self] at hc
      obtain ⟨callback, -, rfl⟩ := Option.map_eq_some_iff.mp hc
      rfl
  · rw [transfers, htransfers, hfilterMap, List.mem_append, List.mem_singleton] at hmem
    rcases hmem with hold | rfl
    · exact (h.young number hold).trans (Nat.lt_succ_self _)
    · exact Nat.lt_succ_self _
  · rw [transfers, htransfers, hfilterMap]
    refine List.nodup_append.mpr ⟨h.distinct, List.nodup_singleton _, ?_⟩
    rintro number hold _ hnew rfl
    exact (h.young number hold).ne (List.mem_singleton.mp hnew)
  · rw [transfers, htransfers, hfilterMap, List.mem_append, List.mem_singleton] at hmem
    rcases hmem with hold | rfl
    · exact h.waiting number hold
    · intro hran
      obtain ⟨r, hr, hrn⟩ := List.mem_map.mp hran
      exact (h.old r hr).ne hrn

/-! ## What a completion does -/

theorem complete_eq_some {n : ℕ} {positive : Bool} (h : d.complete n positive = some e) :
    ∃ entry, d.inflight[n]? = some entry ∧ (positive = true → entry.operation.isSome = true) ∧
      ((entry.data = none ∧ e = { d with inflight := d.inflight.eraseIdx n }) ∨
        ∃ ref, entry.data = some ref ∧ e = Driver.freeSlot { d with
          inflight := d.inflight.eraseIdx n
          ran := d.ran ++ d.called entry ref positive } ref) := by
  unfold complete at h
  cases hentry : d.inflight[n]? with
  | none => simp [hentry] at h
  | some entry =>
    rw [hentry] at h
    by_cases hcontrol : positive = true ∧ entry.operation = none
    · simp only [if_pos hcontrol] at h
      cases h
    · simp only [if_neg hcontrol] at h
      refine ⟨entry, rfl, fun hpositive => ?_, ?_⟩
      · exact Option.isSome_iff_ne_none.mpr fun hnone => hcontrol ⟨hpositive, hnone⟩
      · cases hdata : entry.data with
        | none =>
          rw [hdata] at h
          cases h
          exact .inl ⟨rfl, rfl⟩
        | some ref =>
          rw [hdata] at h
          cases h
          exact .inr ⟨ref, rfl, rfl⟩

theorem freeSlot_used (ref r : SlotRef) :
    ((d.freeSlot ref).slots r).used = if r = ref then false else (d.slots r).used := by
  by_cases hr : r = ref
  · subst hr
    simp [freeSlot, setSlot]
  · simp [freeSlot, setSlot, hr]

theorem perm_eraseIdx {n : ℕ} {entry : RingEntry} (hentry : d.inflight[n]? = some entry) :
    (entry :: d.inflight.eraseIdx n).Perm d.inflight := by
  obtain ⟨hn, rfl⟩ := List.getElem?_eq_some_iff.mp hentry
  exact List.getElem_cons_eraseIdx_perm hn

/-- The operations in flight are the one that completes and those that stay. -/
theorem transfers_perm {n : ℕ} {entry : RingEntry} (hentry : d.inflight[n]? = some entry)
    (hoperation : entry.operation.isSome = true) :
    (entry :: (d.inflight.eraseIdx n).filter (·.operation.isSome)).Perm d.transfers := by
  have hfiltered := (perm_eraseIdx hentry).filter (·.operation.isSome)
  rwa [List.filter_cons_of_pos (by simp [hoperation])] at hfiltered

/-- An operation that completes leaves one entry less for its slot. -/
theorem countP_eraseIdx {n : ℕ} {entry : RingEntry} {ref : SlotRef}
    (hentry : d.inflight[n]? = some entry) (hoperation : entry.operation.isSome = true)
    (href : entry.data = some ref) (r : SlotRef) :
    (d.inflight.eraseIdx n).countP (·.refersTo r) + (if r = ref then 1 else 0) =
      d.inflight.countP (·.refersTo r) := by
  have hcons := (perm_eraseIdx hentry).countP_eq (·.refersTo r)
  rw [List.countP_cons] at hcons
  rw [← hcons]
  simp [RingEntry.refersTo, hoperation, href, eq_comm]

theorem transfers_control {n : ℕ} {entry : RingEntry} (hentry : d.inflight[n]? = some entry)
    (hcontrol : entry.operation = none) :
    (d.inflight.eraseIdx n).filter (·.operation.isSome) = d.transfers := by
  obtain ⟨hn, rfl⟩ := List.getElem?_eq_some_iff.mp hentry
  have hsplit : d.inflight = d.inflight.take n ++ d.inflight[n] :: d.inflight.drop (n + 1) := by
    rw [← List.drop_eq_getElem_cons hn, List.take_append_drop]
  rw [List.eraseIdx_eq_take_drop_succ, List.filter_append, transfers]
  conv_rhs => rw [hsplit]
  rw [List.filter_append, List.filter_cons_of_neg (by simp [hcontrol])]

/-- The completion of a cancellation frees no slot that is in use. -/
theorem Owned.control (h : d.Owned) {n : ℕ} {positive : Bool} {entry : RingEntry}
    (hcomplete : d.complete n positive = some e) (hentry : d.inflight[n]? = some entry)
    (hcontrol : entry.operation = none)
    (hunused : ∀ ref ∈ entry.data, (d.slots ref).used = false) : Same d e := by
  obtain ⟨entry', hentry', -, hcases⟩ := complete_eq_some hcomplete
  rw [hentry] at hentry'
  cases hentry'
  have htransfers := transfers_control hentry hcontrol
  rcases hcases with ⟨-, rfl⟩ | ⟨ref, href, rfl⟩
  · exact ⟨htransfers, h.prepared, fun _ => rfl, fun _ _ => rfl, le_rfl, rfl⟩
  · have hfree := hunused ref href
    refine ⟨htransfers, h.prepared, fun r => ?_, fun r hr => ?_, le_rfl, ?_⟩
    · rw [freeSlot_used]
      split_ifs with hr
      · rw [hr, hfree]
      · rfl
    · have hne : r ≠ ref := by
        rintro rfl
        rw [hfree] at hr
        cases hr
      simp [freeSlot, setSlot, hne]
    · simp [freeSlot, setSlot, called, hcontrol]

/-- A completion calls back its own operation, once. -/
theorem called_own {entry : RingEntry} {ref : SlotRef} (positive : Bool) {number : ℕ}
    (hnumber : entry.operation = some number)
    (howner : ∀ c ∈ (d.slots ref).callback, c.1 = number) :
    d.called entry ref positive = [] ∨
      ∃ callback, d.called entry ref positive = [⟨number, number, callback⟩] := by
  unfold called
  split
  · rename_i number' owner callback hoperation hcallback
    rw [hnumber] at hoperation
    cases hoperation
    obtain rfl : owner = number := howner _ hcallback
    exact .inr ⟨callback, rfl⟩
  · exact .inl rfl

theorem freeSlot_callback (ref r : SlotRef) :
    ((d.freeSlot ref).slots r).callback = (d.slots r).callback := by
  by_cases hr : r = ref
  · subst hr
    simp [freeSlot, setSlot]
  · simp [freeSlot, setSlot, hr]

theorem mem_called {entry : RingEntry} {ref : SlotRef} {positive : Bool} {number : ℕ}
    (hnumber : entry.operation = some number)
    (howner : ∀ c ∈ (d.slots ref).callback, c.1 = number) {r : Callback κ}
    (hr : r ∈ d.called entry ref positive) : r.owner = number ∧ r.completed = number := by
  rcases called_own positive hnumber howner with hnone | ⟨callback, hone⟩
  · simp [hnone] at hr
  · rw [hone, List.mem_singleton] at hr
    subst hr
    exact ⟨rfl, rfl⟩

/-- What has been called back once stays so when an operation is called back that has not been. -/
theorem called_once {entry : RingEntry} {ref : SlotRef} {positive : Bool} {number : ℕ}
    (hnumber : entry.operation = some number)
    (howner : ∀ c ∈ (d.slots ref).callback, c.1 = number) (honce : (d.ran.map (·.owner)).Nodup)
    (hnew : number ∉ d.ran.map (·.owner)) :
    ((d.ran ++ d.called entry ref positive).map (·.owner)).Nodup := by
  rcases called_own positive hnumber howner with hnone | ⟨callback, hone⟩
  · rw [hnone, List.append_nil]
    exact honce
  · rw [hone, List.map_append]
    refine List.nodup_append.mpr ⟨honce, List.nodup_singleton _, ?_⟩
    rintro owner hold _ hlast rfl
    rw [List.map_singleton, List.mem_singleton] at hlast
    rw [hlast] at hold
    exact hnew hold

/-- An operation in flight that completes gives its slot back, and calls back itself only. -/
theorem Owned.completed (h : d.Owned) {n : ℕ} {positive : Bool} {entry : RingEntry} {number : ℕ}
    (hcomplete : d.complete n positive = some e) (hentry : d.inflight[n]? = some entry)
    (hnumber : entry.operation = some number) : e.Owned := by
  obtain ⟨entry', hentry', -, hcases⟩ := complete_eq_some hcomplete
  rw [hentry] at hentry'
  cases hentry'
  have hoperation : entry.operation.isSome = true := by rw [hnumber, Option.isSome_some]
  have htransfers := transfers_perm hentry hoperation
  have hmem : entry ∈ d.transfers := htransfers.subset (List.mem_cons_self ..)
  obtain ⟨ref, href, howner⟩ := h.owner entry hmem number hnumber
  rcases hcases with ⟨hnone, -⟩ | ⟨ref', href', rfl⟩
  · rw [href] at hnone
    cases hnone
  rw [href] at href'
  cases href'
  -- the numbers of the other operations in flight are different
  have hnumbers := htransfers.filterMap (·.operation)
  rw [List.filterMap_cons_some hnumber] at hnumbers
  have hdistinct := hnumbers.nodup_iff.mpr h.distinct
  obtain ⟨hother, hrest⟩ := List.nodup_cons.mp hdistinct
  have hused := h.used_of_mem hmem href
  have hnew : number ∈ d.transfers.filterMap (·.operation) :=
    hnumbers.subset (List.mem_cons_self ..)
  refine ⟨⟨fun r => ?_, fun r hr => ?_, ?_⟩, h.prepared, fun entry' hmem' number' hnumber' => ?_,
    fun number' hmem' => ?_, fun r hr => ?_, hrest, fun number' hmem' hran' => ?_⟩
  · have hr := countP_eraseIdx hentry hoperation href r
    rw [h.exact.used] at hr
    rw [freeSlot_used]
    change (d.inflight.eraseIdx n).countP (·.refersTo r) = _
    by_cases hsame : r = ref
    · rw [hsame, if_pos rfl, if_pos hused] at hr
      rw [hsame, if_pos rfl]
      simpa using hr
    · rw [if_neg hsame, Nat.add_zero] at hr
      rw [if_neg hsame, hr]
  · rcases List.mem_append.mp hr with hold | hcalled
    · exact h.exact.own r hold
    · obtain ⟨howner', hcompleted⟩ := mem_called hnumber howner hcalled
      rw [howner', hcompleted]
  · exact called_once hnumber howner h.exact.once (h.waiting number hnew)
  · obtain ⟨r, hr, howner'⟩ := h.owner entry' (htransfers.subset (List.mem_cons_of_mem _ hmem'))
      number' hnumber'
    exact ⟨r, hr, by rwa [freeSlot_callback]⟩
  · exact h.young number' (hnumbers.subset (List.mem_cons_of_mem _ hmem'))
  · rcases List.mem_append.mp hr with hold | hcalled
    · exact h.old r hold
    · rw [(mem_called hnumber howner hcalled).1]
      exact h.young number hnew
  · obtain ⟨r, hr, rfl⟩ := List.mem_map.mp hran'
    rcases List.mem_append.mp hr with hold | hcalled
    · exact h.waiting r.owner (hnumbers.subset (List.mem_cons_of_mem _ hmem'))
        (List.mem_map_of_mem hold)
    · rw [(mem_called hnumber howner hcalled).1] at hmem'
      exact hother hmem'

/-! ## Callbacks -/

/-- A read or a write leaves the callback of every slot but its own. -/
theorem transfer_callback {device : ℕ} {buffer submits : Bool} {callback : Option κ} {ref : SlotRef}
    {c : ℕ × κ}
    (h : c ∈ ((d.transfer entries device buffer callback submits).2.slots ref).callback) :
    c ∈ (d.slots ref).callback ∨ c.1 = d.operations ∧ c.2 ∈ callback ∧
      (d.transfer entries device buffer callback submits).2.operations = d.operations + 1 := by
  have hcases : Transferred entries d device buffer callback submits _ :=
    transfer_transferred device buffer callback submits
  have htaken {r : SlotRef} {used : Bool} (hc : c ∈ (d.taken r callback used ref).callback) :
      c ∈ (d.slots ref).callback ∨ c.1 = d.operations ∧ c.2 ∈ callback := by
    by_cases hr : ref = r
    · subst hr
      simp only [taken, Function.update_self] at hc
      obtain ⟨cb, hcb, rfl⟩ := Option.map_eq_some_iff.mp hc
      exact .inr ⟨rfl, hcb⟩
    · simp only [taken, Function.update_of_ne hr] at hc
      exact .inl hc
  generalize d.transfer entries device buffer callback submits = result at hcases h
  cases hcases with
  | rejected => exact .inl h
  | noEntry | refused | done => exact (htaken h).imp_right fun hnew => ⟨hnew.1, hnew.2, rfl⟩

theorem transfer_operations (device : ℕ) (buffer : Bool) (callback : Option κ) (submits : Bool) :
    d.operations ≤ (d.transfer entries device buffer callback submits).2.operations := by
  have hcases : Transferred entries d device buffer callback submits _ :=
    transfer_transferred device buffer callback submits
  generalize d.transfer entries device buffer callback submits = result at hcases
  cases hcases with
  | rejected => exact le_rfl
  | noEntry | refused | done => exact Nat.le_succ _

/-- A read or a write adds at most itself to what will still complete. -/
theorem transfer_outstanding (device : ℕ) (buffer : Bool) (callback : Option κ) (submits : Bool) :
    (d.transfer entries device buffer callback submits).2.outstanding = d.outstanding ∨
      (d.transfer entries device buffer callback submits).2.outstanding =
        d.outstanding ++ [d.operations] := by
  have hcases : Transferred entries d device buffer callback submits _ :=
    transfer_transferred device buffer callback submits
  generalize d.transfer entries device buffer callback submits = result at hcases
  cases hcases with
  | rejected | noEntry => exact .inl rfl
  | refused | done => exact .inr (by simp [outstanding, List.filterMap_append])

/-- An abort prepares its cancellation and submits, if there is room on the ring. -/
theorem abort_cases (d : Driver κ) (entries device : ℕ) (submits : Bool) :
    (d.abort entries device submits).2 = d ∨
      (d.abort entries device submits).2 =
        (({ d with tail := d.tail + 1 } : Driver κ).prep (d.tail % entries) none).submit
          submits := by
  unfold abort getSqe
  cases Device.ofIndex device with
  | none => exact .inl rfl
  | some dev =>
    by_cases hroom : d.prepared.length < entries
    · rw [if_pos hroom]
      exact .inr rfl
    · rw [if_neg hroom]
      exact .inl rfl

@[simp] theorem abort_slots (device : ℕ) (submits : Bool) :
    (d.abort entries device submits).2.slots = d.slots := by
  rcases d.abort_cases entries device submits with h | h
  · rw [h]
  · rw [h]
    cases submits <;> rfl

@[simp] theorem abort_operations (device : ℕ) (submits : Bool) :
    (d.abort entries device submits).2.operations = d.operations := by
  rcases d.abort_cases entries device submits with h | h
  · rw [h]
  · rw [h]
    cases submits <;> rfl

theorem complete_operations {n : ℕ} {positive : Bool} (h : d.complete n positive = some e) :
    e.operations = d.operations := by
  obtain ⟨entry, -, -, hcases⟩ := complete_eq_some h
  rcases hcases with ⟨-, rfl⟩ | ⟨r, -, rfl⟩ <;> rfl

/-- A completion takes its own operation from those that will still complete. -/
theorem complete_outstanding {n : ℕ} {positive : Bool} (h : d.complete n positive = some e) :
    ∃ entry, d.inflight[n]? = some entry ∧
      (entry.operation.toList ++ e.outstanding).Perm d.outstanding := by
  obtain ⟨entry, hentry, -, hcases⟩ := complete_eq_some h
  have hperm : (entry :: d.inflight.eraseIdx n ++ d.prepared).Perm (d.inflight ++ d.prepared) :=
    (perm_eraseIdx hentry).append_right _
  have hfiltered := hperm.filterMap (·.operation)
  refine ⟨entry, hentry, ?_⟩
  have he : e.outstanding = (d.inflight.eraseIdx n ++ d.prepared).filterMap (·.operation) := by
    rcases hcases with ⟨-, rfl⟩ | ⟨r, -, rfl⟩ <;> rfl
  rw [he]
  cases hoperation : entry.operation with
  | none => simpa [hoperation, outstanding] using hfiltered
  | some number => simpa [hoperation, outstanding] using hfiltered

theorem complete_callback {n : ℕ} {positive : Bool} (h : d.complete n positive = some e)
    (ref : SlotRef) : (e.slots ref).callback = (d.slots ref).callback := by
  obtain ⟨entry, -, -, hcases⟩ := complete_eq_some h
  rcases hcases with ⟨-, rfl⟩ | ⟨r, -, rfl⟩
  · rfl
  · rw [freeSlot_callback]

/-- The callbacks that a completion runs come from a slot. -/
theorem complete_ran {n : ℕ} {positive : Bool} (h : d.complete n positive = some e) :
    ∃ callbacks, e.ran = d.ran ++ callbacks ∧ callbacks.length ≤ 1 ∧
      ∀ c ∈ callbacks, positive = true ∧
      (∃ entry, d.inflight[n]? = some entry ∧ entry.operation = some c.completed) ∧
      ∃ ref, (d.slots ref).callback = some (c.owner, c.callback) := by
  obtain ⟨entry, hentry, -, hcases⟩ := complete_eq_some h
  rcases hcases with ⟨-, rfl⟩ | ⟨ref, -, rfl⟩
  · exact ⟨[], (List.append_nil _).symm, Nat.zero_le 1, fun _ hc => (List.not_mem_nil hc).elim⟩
  · refine ⟨d.called entry ref positive, rfl, ?_, fun c hc => ?_⟩
    · unfold called
      split <;> simp
    unfold called at hc
    split at hc
    · rename_i number owner callback hoperation hcallback
      rw [List.mem_singleton.mp hc]
      exact ⟨rfl, ⟨entry, hentry, hoperation⟩, ref, hcallback⟩
    · exact (List.not_mem_nil hc).elim

/-! ## One step -/

theorem Same.freedByOwn (h : Same d e) (act : DriverAct κ) : FreedByOwn d act e := by
  intro ref hused hfree
  rw [h.used, hused] at hfree
  cases hfree

theorem Owned.outstanding_same (h : d.Owned) (hsame : Same d e) :
    e.outstanding = d.outstanding := by
  rw [(h.same hsame).outstanding_eq, h.outstanding_eq, hsame.transfers]

theorem Owned.same_exact (h : d.Owned) (hsame : Same d e) (act : DriverAct κ) :
    e.Owned ∧ SlotsExact entries d act e :=
  ⟨h.same hsame, (h.same hsame).exact, hsame.freedByOwn act,
    fun _ _ _ => ⟨fun ref => ⟨hsame.used ref, hsame.slots ref⟩, h.outstanding_same hsame⟩⟩

theorem Owned.transfer (h : d.Owned) {act : DriverAct κ} {device : ℕ} {buffer submits : Bool}
    {callback : Option κ}
    (hact : d.apply entries act = some (d.transfer entries device buffer callback submits))
    (hfits : d.SubmitFits entries device buffer submits) {status : Status}
    (htransfer : d.transfer entries device buffer callback submits = (status, e)) :
    e.Owned ∧ SlotsExact entries d act e := by
  have hcases : Transferred entries d device buffer callback submits _ :=
    transfer_transferred device buffer callback submits
  rw [htransfer] at hact hcases
  cases hcases with
  | rejected => exact h.same_exact ⟨rfl, h.prepared, fun _ => rfl, fun _ _ => rfl, le_rfl, rfl⟩ act
  | noEntry hslot => exact h.same_exact (h.noEntry (allocateSlot_unused hslot)) act
  | refused hslot hroom hdevice hbuffer hsubmits =>
    have hsubmitted := hfits _ hdevice hbuffer (by simp [hslot]) hroom
    rw [hsubmits] at hsubmitted
    cases hsubmitted
  | @done dev i hslot =>
    have hfree := allocateSlot_unused hslot
    have howned := @Owned.done _ d h (dev, i) callback hfree
      (Function.update d.userData (d.tail % entries) (some (dev, i)))
    refine ⟨howned, howned.exact, fun ref hused hunused => ?_, fun status' hstatus hne => ?_⟩
    · dsimp only at hunused
      rw [taken_of_used hfree ref hused, hused] at hunused
      cases hunused
    · rw [hact] at hstatus
      cases hstatus
      exact absurd rfl hne

/-- The outcomes of an abort: at most another cancellation is prepared or in flight. -/
theorem Owned.abort (h : d.Owned) (device : ℕ) (submits : Bool) :
    Same d (d.abort entries device submits).2 := by
  have hrefl : Same d d := ⟨rfl, h.prepared, fun _ => rfl, fun _ _ => rfl, le_rfl, rfl⟩
  have hprepared : ∀ entry ∈ d.prepared ++ [⟨d.userData (d.tail % entries), none⟩],
      entry.operation = none := by
    intro entry hmem
    rcases List.mem_append.mp hmem with hold | hnew
    · exact h.prepared entry hold
    · rw [List.mem_singleton.mp hnew]
  rcases d.abort_cases entries device submits with hsame | hadded
  · rw [hsame]
    exact hrefl
  · rw [hadded]
    cases submits with
    | false => exact ⟨rfl, hprepared, fun _ => rfl, fun _ _ => rfl, le_rfl, rfl⟩
    | true =>
      refine ⟨?_, fun _ hmem => (List.not_mem_nil hmem).elim, fun _ => rfl, fun _ _ => rfl,
        le_rfl, rfl⟩
      have hnone : (d.prepared ++ [RingEntry.mk (d.userData (d.tail % entries)) none]).filter
          (·.operation.isSome) = [] :=
        List.filter_eq_nil_iff.mpr fun entry hmem => by simp [hprepared entry hmem]
      change (d.inflight ++ (d.prepared ++ [RingEntry.mk _ none])).filter _ = d.transfers
      rw [List.filter_append, hnone, List.append_nil, transfers]

theorem Owned.step (h : d.Owned) {act : DriverAct κ} (hstep : Step entries d act e)
    (hfits : d.Fits entries act) : e.Owned ∧ SlotsExact entries d act e := by
  obtain ⟨status, hact⟩ := hstep
  cases act with
  | write device buffer callback submits | read device buffer callback submits =>
    exact h.transfer rfl hfits (Option.some.inj hact)
  | abort device submits =>
    have he : (d.abort entries device submits).2 = e := congrArg Prod.snd (Option.some.inj hact)
    exact h.same_exact (he ▸ h.abort device submits) _
  | complete n positive =>
    obtain ⟨e', hcomplete, he⟩ := Option.map_eq_some_iff.mp hact
    cases he
    obtain ⟨entry, hentry, -⟩ := complete_eq_some hcomplete
    cases hoperation : entry.operation with
    | none =>
      exact h.same_exact (h.control hcomplete hentry hoperation (hfits entry hentry hoperation)) _
    | some number =>
      have howned := h.completed hcomplete hentry hoperation
      refine ⟨howned, howned.exact, fun ref hused hfree => ?_, fun status hstatus hne => ?_⟩
      · refine ⟨n, positive, rfl, entry, hentry, ?_⟩
        obtain ⟨entry', hentry', -, hcases⟩ := complete_eq_some hcomplete
        rw [hentry] at hentry'
        cases hentry'
        rcases hcases with ⟨-, rfl⟩ | ⟨ref', href', rfl⟩
        · rw [hused] at hfree
          cases hfree
        · rw [freeSlot_used] at hfree
          split_ifs at hfree with href
          · simp [RingEntry.refersTo, hoperation, href', href]
          · rw [hused] at hfree
            cases hfree
      · rw [hact] at hstatus
        cases hstatus
        exact absurd rfl hne

/-- A read or write whose submission fails stays in the ring, and will complete. -/
theorem refused_not_exact {act : DriverAct κ} {device : ℕ} {buffer submits : Bool}
    {callback : Option κ}
    (hact : d.apply entries act = some (d.transfer entries device buffer callback submits))
    (hfits : ¬ d.SubmitFits entries device buffer submits) (hstep : Step entries d act e) :
    ¬ SlotsExact entries d act e := by
  rintro ⟨-, -, hclean⟩
  simp only [SubmitFits, Classical.not_imp, not_forall] at hfits
  obtain ⟨dev, hdevice, rfl, hslot, hroom, hsubmits⟩ := hfits
  obtain ⟨status, hstatus⟩ := hstep
  have hcases : Transferred entries d device true callback submits _ :=
    transfer_transferred device true callback submits
  rw [hact, Option.some.injEq] at hstatus
  rw [hstatus] at hact hcases
  cases hcases with
  | rejected _ hrejected => simp [hrejected dev hdevice rfl] at hslot
  | noEntry _ hfull => omega
  | refused =>
    obtain ⟨-, houtstanding⟩ := hclean _ hact (by simp)
    have hlength := congrArg List.length houtstanding
    simp [outstanding, List.filterMap_append] at hlength
  | done _ _ _ hdone => exact hsubmits hdone

/-- A cancellation that has a used slot's user data frees it under the operation. -/
theorem Owned.stale_not_exact (h : d.Owned) {n : ℕ} {positive : Bool} {entry : RingEntry}
    {ref : SlotRef} (hentry : d.inflight[n]? = some entry) (hcontrol : entry.operation = none)
    (href : entry.data = some ref) (hused : (d.slots ref).used = true)
    (hcomplete : d.complete n positive = some e) : ¬ e.Exact := by
  intro hexact
  obtain ⟨entry', hentry', -, hcases⟩ := complete_eq_some hcomplete
  rw [hentry] at hentry'
  cases hentry'
  rcases hcases with ⟨hnone, -⟩ | ⟨ref', href', rfl⟩
  · rw [href] at hnone
    cases hnone
  · rw [href] at href'
    cases href'
    have hcount := hexact.used ref
    rw [freeSlot_used, if_pos rfl, ← countP_transfers] at hcount
    change ((d.inflight.eraseIdx n).filter (·.operation.isSome)).countP (·.refersTo ref) = 0
      at hcount
    rw [transfers_control hentry hcontrol, countP_transfers, h.exact.used, if_pos hused] at hcount
    cases hcount

theorem Owned.not_exact (h : d.Owned) {act : DriverAct κ} (hstep : Step entries d act e)
    (hfits : ¬ d.Fits entries act) : ¬ SlotsExact entries d act e := by
  cases act with
  | write device buffer callback submits | read device buffer callback submits =>
    exact refused_not_exact rfl hfits hstep
  | abort => exact absurd trivial hfits
  | complete n positive =>
    simp only [Fits, Classical.not_imp, not_forall] at hfits
    obtain ⟨entry, hentry, hcontrol, ref, href, hused⟩ := hfits
    obtain ⟨status, hact⟩ := hstep
    obtain ⟨e', hcomplete, he⟩ := Option.map_eq_some_iff.mp hact
    cases he
    exact fun hexact => h.stale_not_exact hentry hcontrol href
      (Bool.eq_true_of_not_eq_false hused) hcomplete hexact.1

/-! ## The driver without user data and numbers -/

/-- What is left of the driver for who only asks which callbacks can still run. -/
def toUart (d : Driver κ) (running : Bool) (thread : CompletionThread) : Uart (ℕ × κ) where
  slots := d.slots
  prepared := d.prepared.map fun entry => ⟨entry.data, entry.operation.isSome⟩
  inflight := d.inflight.map fun entry => ⟨entry.data, entry.operation.isSome⟩
  running := running
  thread := thread

variable {running : Bool} {thread : CompletionThread}

/-- A read or a write is a transfer of the abstract driver. -/
theorem toUart_transfer {device : ℕ} {dev : Device} (hdevice : Device.ofIndex device = some dev)
    (callback : Option κ) (submits : Bool) :
    ∃ answer, (d.transfer entries device true callback submits).2.toUart running thread =
      (d.toUart running thread).transfer dev (callback.map (d.operations, ·)) answer := by
  have hcases : Transferred entries d device true callback submits _ :=
    transfer_transferred device true callback submits
  generalize d.transfer entries device true callback submits = result at hcases
  have hsame {i : Fin maxQueuedOperations} (hslot : d.allocateSlot dev = some i) :
      (d.toUart running thread).allocateSlot dev = some i := hslot
  cases hcases with
  | rejected _ hrejected =>
    refine ⟨.noEntry, ?_⟩
    have hnone : (d.toUart running thread).allocateSlot dev = none :=
      Option.isSome_eq_false_iff.mp (hrejected dev hdevice rfl) |> Option.isNone_iff_eq_none.mp
    simp [Uart.transfer, hnone]
  | noEntry hslot _ hdevice' =>
    rw [hdevice] at hdevice'
    cases hdevice'
    refine ⟨.noEntry, ?_⟩
    rw [Uart.transfer, hsame hslot]
    simp [Uart.enqueue, Uart.setSlot, toUart, taken]
  | refused hslot _ hdevice' =>
    rw [hdevice] at hdevice'
    cases hdevice'
    refine ⟨.refused, ?_⟩
    rw [Uart.transfer, hsame hslot]
    simp [Uart.enqueue, Uart.setSlot, toUart, taken]
  | done hslot _ hdevice' =>
    rw [hdevice] at hdevice'
    cases hdevice'
    refine ⟨.done, ?_⟩
    rw [Uart.transfer, hsame hslot]
    simp [Uart.enqueue, Uart.setSlot, toUart, taken]

/-- An abort is one of the abstract driver, with the user data that the place still has. -/
theorem toUart_abort {device : ℕ} {dev : Device} (hdevice : Device.ofIndex device = some dev)
    (submits : Bool) :
    ∃ answer, (d.abort entries device submits).2.toUart running thread =
      (d.toUart running thread).abort (d.userData (d.tail % entries)) answer := by
  simp only [Driver.abort, hdevice, getSqe]
  by_cases hroom : d.prepared.length < entries
  · simp only [if_pos hroom, prep, submit]
    cases submits with
    | true => exact ⟨.done, by simp [Uart.abort, Uart.enqueue, toUart]⟩
    | false => exact ⟨.refused, by simp [Uart.abort, Uart.enqueue, toUart]⟩
  · simp only [if_neg hroom]
    exact ⟨.noEntry, rfl⟩

theorem toUart_complete {n : ℕ} {positive : Bool} (h : d.complete n positive = some e) :
    ∃ callback, (d.toUart running .waiting).complete n positive =
      some (e.toUart running .checking, callback) := by
  obtain ⟨entry, hentry, hpositive, hcases⟩ := complete_eq_some h
  have hentry' : (d.toUart running .waiting).inflight[n]? =
      some ⟨entry.data, entry.operation.isSome⟩ := by
    simp [toUart, hentry]
  have henabled : (d.toUart running .waiting).thread = .waiting ∧
      (positive = true → entry.operation.isSome = true) := ⟨rfl, hpositive⟩
  rcases hcases with ⟨hnone, rfl⟩ | ⟨ref, href, rfl⟩
  · refine ⟨none, ?_⟩
    simp only [Uart.complete, hentry', if_pos henabled, hnone, Uart.seen]
    simp [toUart, List.eraseIdx_map]
  · refine ⟨if positive then (d.slots ref).callback else none, ?_⟩
    simp only [Uart.complete, hentry', if_pos henabled, href, Uart.seen]
    simp [toUart, List.eraseIdx_map, Uart.freeSlot, Uart.setSlot, freeSlot, setSlot]

end Driver

/-- Slots: every step of a run keeps the slots exact precisely when in the run no submission of a
read or write fails and no cancellation completes with the user data of a used slot. -/
theorem slots_exact_iff {κ : Type*} {entries : ℕ} {acts : List (DriverAct κ)} {d : Driver κ} :
    Run (Meeting (Driver.SlotsExact entries) (Driver.Step entries)) Driver.init acts d ↔
      Run (Guarded (Driver.Fits entries) (Driver.Step entries)) Driver.init acts d :=
  Run.meeting_iff_guarded Driver.init_owned
    (fun _ _ _ howned hstep hfits => howned.step hstep hfits)
    (fun _ _ _ howned hstep hfits => howned.not_exact hstep hfits)

def refusedThenRead : List (DriverAct Unit) :=
  [.read 0 true (some ()) false, .read 0 true (some ()) true]

theorem slot_shared :
    ∃ d : Driver Unit, Run (Driver.Step 32) Driver.init refusedThenRead d ∧ ¬ d.Exact ∧
      d.inflight = [⟨some (.uart0, 0), some 0⟩, ⟨some (.uart0, 0), some 1⟩] := by
  refine ⟨_, .cons ⟨_, rfl⟩ (.single ⟨_, rfl⟩), fun hexact => ?_, rfl⟩
  have hused := hexact.used (.uart0, 0)
  revert hused
  decide

end SnipeIt.Hal
