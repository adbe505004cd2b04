import Mathlib.Logic.Function.Basic
import Mathlib.Data.List.FinRange
import Mathlib.Data.List.Perm.Basic
import Mathlib.Tactic.Common

/-! # The UART driver

Reads and writes are handed to an io_uring with a slot that keeps the callback.
One thread takes the completions and calls back. `κ` is what a callback does.
-/

namespace SnipeIt.Hal

inductive Device where
  | uart0 | uart1 | uart2
  deriving DecidableEq

abbrev maxQueuedOperations : ℕ := 4

abbrev SlotRef := Device × Fin maxQueuedOperations

structure OpSlot (κ : Type*) where
  callback : Option κ
  used : Bool

/-- An entry of the ring. A read or a write refers to its slot. A cancellation or a no-op is
submitted without a reference, and has the one that its place in the ring held before, if any. -/
structure Entry where
  data : Option SlotRef
  transfer : Bool

def Entry.isFor (device : Device) (entry : Entry) : Bool :=
  entry.transfer && entry.data.any (·.1 = device)

/-- The completion thread is at the test of its loop, waits in it, or has left it. -/
inductive CompletionThread where
  | checking | waiting | exited
  deriving DecidableEq

structure Uart (κ : Type*) where
  slots : SlotRef → OpSlot κ
  prepared : List Entry
  inflight : List Entry
  running : Bool
  thread : CompletionThread

/-- How the ring takes an entry: it has none free, the submission fails and the entry stays in the
ring for the next one, or everything prepared is submitted. -/
inductive Submission where
  | noEntry | refused | done
  deriving DecidableEq

namespace Uart

variable {κ : Type*}

def init : Uart κ := ⟨fun _ => ⟨none, false⟩, [], [], true, .checking⟩

def setSlot (u : Uart κ) (ref : SlotRef) (slot : OpSlot κ) : Uart κ :=
  { u with slots := Function.update u.slots ref slot }

/-- `io_uring_get_sqe` and `io_uring_submit`. -/
def enqueue (u : Uart κ) (entry : Entry) : Submission → Uart κ
  | .noEntry => u
  | .refused => { u with prepared := u.prepared ++ [entry] }
  | .done => { u with prepared := [], inflight := u.inflight ++ (u.prepared ++ [entry]) }

def allocateSlot (u : Uart κ) (device : Device) : Option (Fin maxQueuedOperations) :=
  (List.finRange maxQueuedOperations).find? fun i => !(u.slots (device, i)).used

def freeSlot (u : Uart κ) (ref : SlotRef) : Uart κ :=
  u.setSlot ref { u.slots ref with used := false }

/-- `hal_uart_read` and `hal_uart_write`, which differ in the direction of the transfer. A slot
whose submission did not go through is free again and keeps its callback. -/
def transfer (u : Uart κ) (device : Device) (callback : Option κ) (answer : Submission) :
    Uart κ :=
  match u.allocateSlot device with
  | none => u
  | some i =>
    (u.setSlot (device, i) ⟨callback, decide (answer = .done)⟩).enqueue
      ⟨some (device, i), true⟩ answer

def abort (u : Uart κ) (data : Option SlotRef) (answer : Submission) : Uart κ :=
  u.enqueue ⟨data, false⟩ answer

/-- The first half of `hal_uart_cleanup`, which wakes the completion thread with a no-op. -/
def stop (u : Uart κ) (data : Option SlotRef) (answer : Submission) : Uart κ :=
  ({ u with running := false }).enqueue ⟨data, false⟩ answer

def check (u : Uart κ) : Option (Uart κ) :=
  if u.thread = .checking then
    some { u with thread := if u.running then .waiting else .exited }
  else none

def seen (u : Uart κ) (n : ℕ) : Uart κ :=
  { u with inflight := u.inflight.eraseIdx n, thread := .checking }

/-- The body of that loop on the completion of entry `n`, and the callback it runs. Only a transfer
has a positive result. -/
def complete (u : Uart κ) (n : ℕ) (positive : Bool) : Option (Uart κ × Option κ) :=
  match u.inflight[n]? with
  | none => none
  | some entry =>
    if u.thread = .waiting ∧ (positive = true → entry.transfer = true) then
      match entry.data with
      | none => some (u.seen n, none)
      | some ref =>
        some ((u.freeSlot ref).seen n, if positive then (u.slots ref).callback else none)
    else none

def outstanding (u : Uart κ) : List Entry := u.inflight ++ u.prepared

/-- No outstanding transfer has a callback that satisfies `p`. -/
def NoCallback (u : Uart κ) (p : κ → Prop) : Prop :=
  ∀ entry ∈ u.outstanding, entry.transfer = true →
    ∀ ref ∈ entry.data, ∀ cb ∈ (u.slots ref).callback, ¬ p cb

instance (u : Uart κ) (p : κ → Prop) [DecidablePred p] : Decidable (u.NoCallback p) :=
  inferInstanceAs (Decidable (∀ _ ∈ _, _ → ∀ _ ∈ _, ∀ _ ∈ _, _))

variable {u v : Uart κ} {p : κ → Prop}

@[simp] theorem enqueue_slots (entry : Entry) (answer : Submission) :
    (u.enqueue entry answer).slots = u.slots := by
  cases answer <;> rfl

@[simp] theorem enqueue_thread (entry : Entry) (answer : Submission) :
    (u.enqueue entry answer).thread = u.thread := by
  cases answer <;> rfl

@[simp] theorem enqueue_running (entry : Entry) (answer : Submission) :
    (u.enqueue entry answer).running = u.running := by
  cases answer <;> rfl

@[simp] theorem transfer_thread (device : Device) (callback : Option κ) (answer : Submission) :
    (u.transfer device callback answer).thread = u.thread := by
  unfold transfer
  cases u.allocateSlot device <;> simp [setSlot]

@[simp] theorem transfer_running (device : Device) (callback : Option κ) (answer : Submission) :
    (u.transfer device callback answer).running = u.running := by
  unfold transfer
  cases u.allocateSlot device <;> simp [setSlot]

/-- A transfer leaves its own callback in a slot of its device, and no other new one. -/
theorem transfer_slots {device : Device} {callback : Option κ} {answer : Submission}
    {ref : SlotRef} {c : κ} (hc : c ∈ ((u.transfer device callback answer).slots ref).callback) :
    (ref.1 = device ∧ c ∈ callback) ∨ c ∈ (u.slots ref).callback := by
  unfold transfer at hc
  cases hslot : u.allocateSlot device with
  | none =>
    rw [hslot] at hc
    exact .inr hc
  | some i =>
    simp only [hslot, enqueue_slots, setSlot] at hc
    by_cases href : ref = (device, i)
    · subst href
      simp only [Function.update_self] at hc
      exact .inl ⟨rfl, hc⟩
    · simp only [Function.update_of_ne href] at hc
      exact .inr hc

theorem transfer_callback {device : Device} {callback : Option κ} {answer : Submission}
    {ref : SlotRef} {c : κ} (hc : c ∈ ((u.transfer device callback answer).slots ref).callback) :
    c ∈ callback ∨ c ∈ (u.slots ref).callback :=
  (transfer_slots hc).imp_left And.right

theorem mem_outstanding_enqueue {entry e : Entry} {answer : Submission}
    (he : e ∈ (u.enqueue entry answer).outstanding) : e ∈ u.outstanding ∨ e = entry := by
  cases answer <;> simp only [enqueue, outstanding, List.mem_append, List.mem_singleton,
    List.not_mem_nil] at he ⊢ <;> tauto

/-- Submitting takes along everything that is still to be submitted. -/
theorem mem_inflight_enqueue_done {entry e : Entry} (he : e ∈ u.outstanding) :
    e ∈ (u.enqueue entry .done).inflight := by
  simp only [enqueue, outstanding, List.mem_append] at he ⊢
  tauto

theorem NoCallback.abort {data : Option SlotRef} {answer : Submission} (h : u.NoCallback p) :
    (u.abort data answer).NoCallback p := by
  intro entry hentry htransfer
  rcases mem_outstanding_enqueue hentry with hold | rfl
  · simpa [Uart.abort] using h entry hold htransfer
  · cases htransfer

theorem NoCallback.stop {data : Option SlotRef} {answer : Submission} (h : u.NoCallback p) :
    (u.stop data answer).NoCallback p :=
  NoCallback.abort (u := { u with running := false }) h

theorem check_eq_some (h : u.check = some v) :
    u.thread = .checking ∧ v = { u with thread := if u.running then .waiting else .exited } := by
  unfold check at h
  split_ifs at h with hthread <;> simp_all

theorem NoCallback.check (h : u.NoCallback p) (hcheck : u.check = some v) : v.NoCallback p := by
  obtain ⟨-, rfl⟩ := check_eq_some hcheck
  exact h

@[simp] theorem freeSlot_callback (ref r : SlotRef) :
    ((u.freeSlot ref).slots r).callback = (u.slots r).callback := by
  by_cases hr : r = ref
  · subst hr
    simp [freeSlot, setSlot]
  · simp [freeSlot, setSlot, hr]

/-- What a completion does: it takes an entry from the ring, and with a positive result it runs
the callback of that entry's slot. -/
theorem complete_eq_some {n : ℕ} {positive : Bool} {cb : Option κ}
    (h : u.complete n positive = some (v, cb)) :
    ∃ entry, u.inflight[n]? = some entry ∧ u.thread = .waiting ∧ v.thread = .checking ∧
      v.running = u.running ∧ v.inflight = u.inflight.eraseIdx n ∧ v.prepared = u.prepared ∧
      (∀ r, (v.slots r).callback = (u.slots r).callback) ∧
      (∀ c ∈ cb, entry.transfer = true ∧ ∃ ref ∈ entry.data, c ∈ (u.slots ref).callback) := by
  unfold complete at h
  cases hentry : u.inflight[n]? with
  | none => simp [hentry] at h
  | some entry =>
    rw [hentry] at h
    by_cases henabled : u.thread = .waiting ∧ (positive = true → entry.transfer = true)
    · simp only [if_pos henabled] at h
      refine ⟨entry, rfl, henabled.1, ?_⟩
      cases hdata : entry.data with
      | none =>
        rw [hdata] at h
        cases h
        exact ⟨rfl, rfl, rfl, rfl, fun _ => rfl, fun _ hc => nomatch hc⟩
      | some ref =>
        rw [hdata] at h
        cases h
        refine ⟨rfl, rfl, rfl, rfl, freeSlot_callback ref, fun c hc => ?_⟩
        cases positive with
        | false => cases hc
        | true => exact ⟨henabled.2 rfl, ref, rfl, hc⟩
    · simp only [if_neg henabled] at h
      cases h

theorem complete_runs {n : ℕ} {positive : Bool} {cb : Option κ} {entry : Entry}
    (h : u.complete n positive = some (v, cb)) (hentry : u.inflight[n]? = some entry) :
    cb = if positive then entry.data.bind fun ref => (u.slots ref).callback else none := by
  unfold complete at h
  rw [hentry] at h
  by_cases henabled : u.thread = .waiting ∧ (positive = true → entry.transfer = true)
  · simp only [if_pos henabled] at h
    cases hdata : entry.data with
    | none =>
      rw [hdata] at h
      cases h
      simp
    | some ref =>
      rw [hdata] at h
      cases h
      rfl
  · simp only [if_neg henabled] at h
    cases h

theorem NoCallback.complete {n : ℕ} {positive : Bool} {cb : Option κ} (h : u.NoCallback p)
    (hcomplete : u.complete n positive = some (v, cb)) :
    v.NoCallback p ∧ ∀ c ∈ cb, ¬ p c := by
  obtain ⟨entry, hentry, -, -, -, hinflight, hprepared, hslots, hcb⟩ := complete_eq_some hcomplete
  constructor
  · intro e he htransfer ref href c hc
    rw [hslots] at hc
    refine h e ?_ htransfer ref href c hc
    simp only [outstanding, List.mem_append, hinflight, hprepared] at he ⊢
    exact he.imp_left List.mem_of_mem_eraseIdx
  · intro c hc
    obtain ⟨htransfer, ref, href, hcall⟩ := hcb c hc
    have hmem : entry ∈ u.outstanding :=
      List.mem_append_left _ (List.mem_of_getElem? hentry)
    exact h entry hmem htransfer ref href c hcall

/-- A transfer in flight can complete with a positive result. -/
theorem complete_callback {entry : Entry} {ref : SlotRef} {c : κ} (hthread : u.thread = .waiting)
    (hentry : entry ∈ u.inflight) (htransfer : entry.transfer = true) (href : ref ∈ entry.data)
    (hc : c ∈ (u.slots ref).callback) : ∃ n v, u.complete n true = some (v, some c) := by
  obtain ⟨n, hn⟩ := List.mem_iff_getElem?.mp hentry
  rw [Option.mem_def] at href hc
  refine ⟨n, (u.freeSlot ref).seen n, ?_⟩
  simp [complete, hthread, hn, htransfer, href, hc]

/-! ## The transfers of one device -/

def inflightFor (u : Uart κ) (device : Device) : ℕ := u.inflight.countP (·.isFor device)

def preparedFor (u : Uart κ) (device : Device) : ℕ := u.prepared.countP (·.isFor device)

/-- The transfers of a device, all of them in flight, are left alone. -/
structure SameFor (u v : Uart κ) (device : Device) : Prop where
  prepared : v.preparedFor device = 0
  inflight : v.inflightFor device = u.inflightFor device
  entries : ∀ entry ∈ v.inflight, entry.isFor device = true → entry ∈ u.inflight
  callback : ∀ ref : SlotRef, ref.1 = device → (v.slots ref).callback = (u.slots ref).callback

variable {device : Device}

theorem SameFor.refl (hprepared : u.preparedFor device = 0) : SameFor u u device :=
  ⟨hprepared, rfl, fun _ h _ => h, fun _ _ => rfl⟩

theorem SameFor.enqueue {entry : Entry} (hentry : entry.isFor device = false)
    {answer : Submission} (hprepared : u.preparedFor device = 0) :
    SameFor u (u.enqueue entry answer) device := by
  unfold preparedFor at hprepared
  refine ⟨?_, ?_, fun e he hfor => ?_, fun ref _ => by simp⟩
  · cases answer <;> simp [Uart.enqueue, preparedFor, List.countP_append, hentry, hprepared]
  · cases answer <;> simp [Uart.enqueue, inflightFor, List.countP_append, hentry, hprepared]
  · cases answer with
    | noEntry | refused => exact he
    | done =>
      simp only [Uart.enqueue, List.mem_append, List.mem_singleton] at he
      rcases he with hold | hold | rfl
      · exact hold
      · exact absurd hfor (List.countP_eq_zero.mp hprepared e hold)
      · rw [hentry] at hfor
        cases hfor

theorem SameFor.stop {data : Option SlotRef} {answer : Submission}
    (hprepared : u.preparedFor device = 0) : SameFor u (u.stop data answer) device := by
  have hsame := @SameFor.enqueue _ { u with running := false } device ⟨data, false⟩ rfl answer
    hprepared
  exact ⟨hsame.prepared, hsame.inflight, hsame.entries, hsame.callback⟩

theorem SameFor.transfer {other : Device} (hother : other ≠ device) {callback : Option κ}
    {answer : Submission} (hprepared : u.preparedFor device = 0) :
    SameFor u (u.transfer other callback answer) device := by
  unfold Uart.transfer
  cases u.allocateSlot other with
  | none => exact .refl hprepared
  | some i =>
    have hentry : Entry.isFor device ⟨some (other, i), true⟩ = false := by
      simp [Entry.isFor, hother]
    have hsame := @SameFor.enqueue _
      (u.setSlot (other, i) ⟨callback, decide (answer = .done)⟩) device _ hentry answer hprepared
    refine ⟨hsame.prepared, hsame.inflight, hsame.entries, fun ref href => ?_⟩
    have hne : ref ≠ (other, i) := fun h => hother (href ▸ h ▸ rfl)
    rw [hsame.callback ref href]
    simp [setSlot, hne]

/-- A transfer that is not submitted puts nothing in flight. -/
theorem transfer_not_done {callback : Option κ} {answer : Submission}
    (h : ¬ ((u.allocateSlot device).isSome = true ∧ answer = .done)) :
    (u.transfer device callback answer).inflight = u.inflight := by
  unfold transfer
  cases hslot : u.allocateSlot device with
  | none => rfl
  | some i =>
    cases answer with
    | done => simp [hslot] at h
    | noEntry | refused => rfl

/-- A transfer that is submitted is in flight, with its callback in a slot. -/
theorem transfer_done {callback : Option κ} (hslot : (u.allocateSlot device).isSome = true)
    (hprepared : u.preparedFor device = 0) (hinflight : u.inflightFor device = 0) :
    (u.transfer device callback .done).inflightFor device = 1 ∧
      (u.transfer device callback .done).preparedFor device = 0 ∧
      ∀ entry ∈ (u.transfer device callback .done).inflight, entry.isFor device = true →
        ∀ ref ∈ entry.data, ((u.transfer device callback .done).slots ref).callback = callback := by
  obtain ⟨i, hi⟩ := Option.isSome_iff_exists.mp hslot
  unfold preparedFor inflightFor at *
  simp only [transfer, hi, enqueue, setSlot]
  refine ⟨?_, rfl, fun entry hentry hfor ref href => ?_⟩
  · have hnew : Entry.isFor device ⟨some (device, i), true⟩ = true := by simp [Entry.isFor]
    simp only [List.countP_append, hprepared, hinflight, List.countP_singleton, hnew, if_true]
  · simp only [List.mem_append, List.mem_singleton] at hentry
    rcases hentry with hold | hold | rfl
    · exact absurd hfor (List.countP_eq_zero.mp hinflight entry hold)
    · exact absurd hfor (List.countP_eq_zero.mp hprepared entry hold)
    · cases href
      simp

/-- A completion takes its own entry out of the count. -/
theorem complete_for {n : ℕ} {positive : Bool} {cb : Option κ} {entry : Entry}
    (h : u.complete n positive = some (v, cb)) (hentry : u.inflight[n]? = some entry) :
    v.inflightFor device + (if entry.isFor device then 1 else 0) = u.inflightFor device := by
  obtain ⟨e, he, -, -, -, hinflight, -⟩ := complete_eq_some h
  obtain ⟨hn, rfl⟩ := List.getElem?_eq_some_iff.mp hentry
  have hperm := (List.getElem_cons_eraseIdx_perm hn).countP_eq (·.isFor device)
  rw [List.countP_cons] at hperm
  rw [inflightFor, hinflight]
  exact hperm

theorem SameFor.complete {n : ℕ} {positive : Bool} {cb : Option κ} {entry : Entry}
    (h : u.complete n positive = some (v, cb)) (hentry : u.inflight[n]? = some entry)
    (hother : entry.isFor device = false) (hprepared : u.preparedFor device = 0) :
    SameFor u v device := by
  have hcount := @complete_for _ _ _ device _ _ _ _ h hentry
  obtain ⟨e, -, -, -, -, hinflight, hv, hslots, -⟩ := complete_eq_some h
  refine ⟨by rwa [preparedFor, hv], by simpa [hother] using hcount, fun e' he' _ => ?_,
    fun ref _ => hslots ref⟩
  rw [hinflight] at he'
  exact List.mem_of_mem_eraseIdx he'

end Uart

end SnipeIt.Hal
