import SnipeIt.Status
import SnipeIt.Support.Ring
import SnipeIt.Support.Run

/-! # The ring queue (`queue.c`)

`util_queue_init`, `util_queue_push` and `util_queue_pop` on the fields of the
queue, with the arithmetic of `uint32_t`. The calls exclude each other by the
queue's mutex, and a pop that has to wait does not return. What the fields
describe is a ring of the library, in which `head` and `tail` have each other's
name.
-/

namespace SnipeIt.Util
open Support

variable {β : Type*}

/-- A queue as C stores it; the buffer is `none` for `NULL`. -/
structure RingQueue (β : Type*) where
  buffer : Option (List β)
  capacity : UInt32
  head : UInt32
  tail : UInt32
  size : UInt32

namespace RingQueue

/-- `util_queue_init`, which gets the memory of its buffer from the heap and initialises a mutex
and a condition variable. -/
def init (q : RingQueue β) (capacity : UInt32) (memory : Option (List β)) (mutexOk condOk : Bool) :
    Status × RingQueue β :=
  if capacity = 0 then (.nullParam, q)
  else
    match memory with
    | none => (.systemError, { q with buffer := none })
    | some cells =>
      (if mutexOk && condOk then .successful else .systemError,
        { buffer := some cells, capacity := capacity, head := 0, tail := 0, size := 0 })

def push (q : RingQueue β) (element : β) : Status × RingQueue β :=
  match q.buffer with
  | none => (.nullParam, q)
  | some cells =>
    if q.size = q.capacity then (.actionFailed, q)
    else
      (.successful,
        { q with
          buffer := some (cells.set q.tail.toNat element)
          tail := (q.tail + 1) % q.capacity
          size := q.size + 1 })

/-- `util_queue_pop`: the status, the element if there is a cell at the head, and the queue; or
`none` while the caller has to wait. -/
def pop (q : RingQueue β) : Option (Status × Option β × RingQueue β) :=
  match q.buffer with
  | none => some (.nullParam, none, q)
  | some cells =>
    if q.size = 0 then none
    else
      some (.successful, cells[q.head.toNat]?,
        { q with
          head := (q.head + 1) % q.capacity
          size := q.size - 1 })

def cell (q : RingQueue β) (i : ℕ) : Option β := q.buffer.bind (·[i]?)

/-- The `size` cells from `head` on, around the end of the buffer. -/
def stored (q : RingQueue β) : List (Option β) :=
  (List.range q.size.toNat).map fun i => q.cell ((q.head.toNat + i) % q.capacity.toNat)

structure Valid (q : RingQueue β) : Prop where
  allocated : ∃ cells, q.buffer = some cells ∧ cells.length = q.capacity.toNat
  head_lt : q.head < q.capacity
  size_le : q.size ≤ q.capacity
  tail_eq : q.tail.toNat = (q.head.toNat + q.size.toNat) % q.capacity.toNat

variable {q : RingQueue β}

def Valid.ring (h : q.Valid) : Ring (Option β) q.capacity.toNat where
  slots i := q.cell i
  head := q.tail.toNat
  tail := q.head.toNat
  count := q.size.toNat
  tail_lt := UInt32.lt_iff_toNat_lt.mp h.head_lt
  count_le := UInt32.le_iff_toNat_le.mp h.size_le
  head_eq := h.tail_eq

theorem Valid.stored_eq (h : q.Valid) : q.stored = h.ring.content := rfl

theorem Valid.tail_lt (h : q.Valid) : q.tail < q.capacity := by
  rw [UInt32.lt_iff_toNat_lt, h.tail_eq]
  exact Nat.mod_lt _ h.ring.size_pos

/-- An index below the capacity is moved on without an overflow. -/
theorem toNat_succ {i capacity : UInt32} (h : i < capacity) : (i + 1).toNat = i.toNat + 1 := by
  have hlt := UInt32.lt_iff_toNat_lt.mp h
  have hcapacity := capacity.toNat_lt
  rw [UInt32.toNat_add, UInt32.toNat_one, Nat.mod_eq_of_lt (by omega)]

theorem toNat_next {i capacity : UInt32} (h : i < capacity) :
    ((i + 1) % capacity).toNat = (i.toNat + 1) % capacity.toNat := by
  rw [UInt32.toNat_mod, toNat_succ h]

theorem toNat_pred {i : UInt32} (h : i ≠ 0) : (i - 1).toNat = i.toNat - 1 := by
  have hpos : 0 < i.toNat := Nat.pos_of_ne_zero fun h0 => h (UInt32.toNat_inj.mp h0)
  have hle : 1 ≤ i := by
    rw [UInt32.le_iff_toNat_le, UInt32.toNat_one]
    exact hpos
  rw [UInt32.toNat_sub_of_le _ _ hle, UInt32.toNat_one]

theorem init_valid {capacity : UInt32} {memory : List β} (hpos : capacity ≠ 0)
    (hmemory : memory.length = capacity.toNat) :
    (q.init capacity (some memory) true true).2.Valid := by
  have hlt : 0 < capacity.toNat := Nat.pos_of_ne_zero fun h0 => hpos (UInt32.toNat_inj.mp h0)
  rw [init, if_neg hpos]
  exact ⟨⟨memory, rfl, hmemory⟩, UInt32.lt_iff_toNat_lt.mpr hlt,
    UInt32.le_iff_toNat_le.mpr (Nat.zero_le _), (Nat.zero_mod _).symm⟩

theorem init_stored {capacity : UInt32} {memory : List β} (hpos : capacity ≠ 0) :
    (q.init capacity (some memory) true true).2.stored = [] := by
  rw [init, if_neg hpos]
  rfl

/-- A full queue refuses an element and stays as it is. -/
theorem Valid.push_full (h : q.Valid) (element : β) (hfull : q.size = q.capacity) :
    q.push element = (.actionFailed, q) := by
  obtain ⟨cells, hcells, -⟩ := h.allocated
  simp [push, hcells, hfull]

/-- Any other queue stores the element as its newest one. -/
theorem Valid.push_room (h : q.Valid) (element : β) (hroom : q.size ≠ q.capacity) :
    (q.push element).1 = .successful ∧ (q.push element).2.capacity = q.capacity ∧
      (q.push element).2.Valid ∧ (q.push element).2.stored = q.stored ++ [some element] := by
  obtain ⟨cells, hcells, hlength⟩ := h.allocated
  have hsize : q.size < q.capacity := by
    rw [UInt32.lt_iff_toNat_lt]
    exact lt_of_le_of_ne h.ring.count_le fun heq => hroom (UInt32.toNat_inj.mp heq)
  have hcount : h.ring.count < q.capacity.toNat := UInt32.lt_iff_toNat_lt.mp hsize
  have htail := UInt32.lt_iff_toNat_lt.mp h.tail_lt
  have hpush : q.push element = (.successful,
      { q with
        buffer := some (cells.set q.tail.toNat element)
        tail := (q.tail + 1) % q.capacity
        size := q.size + 1 }) := by
    simp [push, hcells, hroom]
  rw [hpush]
  have hvalid : Valid { q with
      buffer := some (cells.set q.tail.toNat element)
      tail := (q.tail + 1) % q.capacity
      size := q.size + 1 } := by
    refine ⟨⟨_, rfl, List.length_set.trans hlength⟩, h.head_lt, ?_, ?_⟩
    · rw [UInt32.le_iff_toNat_le, toNat_succ hsize]
      exact hcount
    · rw [toNat_next h.tail_lt, toNat_succ hsize, h.tail_eq, Nat.mod_add_mod, Nat.add_assoc]
  have hring : hvalid.ring = h.ring.put (some element) hcount := by
    simp only [Valid.ring, Ring.put, Ring.mk.injEq]
    refine ⟨?_, toNat_next h.tail_lt, trivial, toNat_succ hsize⟩
    funext i
    simp only [cell, hcells, Option.bind_some, List.getElem?_set, hlength, htail, if_true,
      eq_comm (a := i.val)]
  refine ⟨rfl, rfl, hvalid, ?_⟩
  rw [hvalid.stored_eq, hring, Ring.content_put, ← h.stored_eq]

theorem Valid.pop_empty (h : q.Valid) (hempty : q.size = 0) : q.pop = none := by
  obtain ⟨cells, hcells, -⟩ := h.allocated
  simp [pop, hcells, hempty]

theorem Valid.pop_some (h : q.Valid) (hsome : q.size ≠ 0) :
    ∃ element q', q.pop = some (.successful, element, q') ∧ q'.capacity = q.capacity ∧ q'.Valid ∧
      q.stored = element :: q'.stored := by
  obtain ⟨cells, hcells, hlength⟩ := h.allocated
  have hcount : 0 < h.ring.count :=
    Nat.pos_of_ne_zero fun h0 => hsome (UInt32.toNat_inj.mp h0)
  have hvalid : Valid { q with
      head := (q.head + 1) % q.capacity
      size := q.size - 1 } := by
    refine ⟨h.allocated, ?_, ?_, ?_⟩
    · rw [UInt32.lt_iff_toNat_lt, toNat_next h.head_lt]
      exact Nat.mod_lt _ h.ring.size_pos
    · have hle := h.ring.count_le
      rw [UInt32.le_iff_toNat_le, toNat_pred hsome]
      exact (Nat.sub_le _ _).trans hle
    · have hpos : 0 < q.size.toNat := hcount
      rw [toNat_next h.head_lt, toNat_pred hsome, h.tail_eq, Nat.mod_add_mod]
      congr 1
      omega
  have hring : hvalid.ring = h.ring.drop hcount := by
    simp only [Valid.ring, Ring.drop, Ring.mk.injEq]
    exact ⟨rfl, trivial, toNat_next h.head_lt, toNat_pred hsome⟩
  refine ⟨cells[q.head.toNat]?, _, ?_, ?_, hvalid, ?_⟩
  · simp [pop, hcells, hsome]
  · rfl
  · rw [hvalid.stored_eq, hring, h.stored_eq, h.ring.content_eq_front_cons hcount]
    simp [Ring.front, Valid.ring, cell, hcells]

end RingQueue

/-- A queue with the elements that pushes have stored and what pops have returned, in order. -/
structure RingHistory (β : Type*) where
  queue : RingQueue β
  pushed : List β
  popped : List (Option β)

inductive RingCall (β : Type*) where
  | push (element : β)
  | pop

namespace RingHistory

def apply (s : RingHistory β) : RingCall β → Option (RingHistory β)
  | .push element =>
    match s.queue.push element with
    | (.successful, queue) => some { s with queue, pushed := s.pushed ++ [element] }
    | (_, queue) => some { s with queue }
  | .pop => s.queue.pop.map fun (_, element, queue) =>
      { s with queue, popped := s.popped ++ [element] }

def Step (s : RingHistory β) (call : RingCall β) (t : RingHistory β) : Prop :=
  s.apply call = some t

/-- The queue holds what has been pushed and not popped yet. -/
structure Kept (capacity : UInt32) (s : RingHistory β) : Prop where
  capacity_eq : s.queue.capacity = capacity
  valid : s.queue.Valid
  pushed : s.pushed.map some = s.popped ++ s.queue.stored

variable {s t : RingHistory β} {capacity : UInt32}

theorem Kept.step {call : RingCall β} (h : s.Kept capacity) (hstep : Step s call t) :
    t.Kept capacity := by
  cases call with
  | push element =>
    by_cases hfull : s.queue.size = s.queue.capacity
    · simp only [Step, apply, h.valid.push_full element hfull, Option.some.injEq] at hstep
      subst hstep
      exact ⟨h.capacity_eq, h.valid, h.pushed⟩
    · obtain ⟨hstatus, hcapacity, hvalid, hstored⟩ := h.valid.push_room element hfull
      generalize hpush : s.queue.push element = answer at hstatus hcapacity hvalid hstored
      obtain ⟨status, queue⟩ := answer
      obtain rfl : status = .successful := hstatus
      simp only [Step, apply, hpush, Option.some.injEq] at hstep
      subst hstep
      refine ⟨hcapacity.trans h.capacity_eq, hvalid, ?_⟩
      show (s.pushed ++ [element]).map some = s.popped ++ queue.stored
      rw [hstored, List.map_append, h.pushed, List.append_assoc]
      rfl
  | pop =>
    by_cases hempty : s.queue.size = 0
    · simp [Step, apply, h.valid.pop_empty hempty] at hstep
    · obtain ⟨element, queue, hpop, hcapacity, hvalid, hstored⟩ := h.valid.pop_some hempty
      simp only [Step, apply, hpop, Option.map_some, Option.some.injEq] at hstep
      subst hstep
      refine ⟨hcapacity.trans h.capacity_eq, hvalid, ?_⟩
      show s.pushed.map some = s.popped ++ [element] ++ queue.stored
      rw [h.pushed, hstored]
      simp

/-- A queue that `util_queue_init` has created and nobody has used. -/
def created (q : RingQueue β) (capacity : UInt32) (memory : List β) : RingHistory β :=
  ⟨(q.init capacity (some memory) true true).2, [], []⟩

variable {q : RingQueue β} {memory : List β} {calls : List (RingCall β)}

theorem created_kept (hpos : capacity ≠ 0) (hmemory : memory.length = capacity.toNat) :
    (created q capacity memory).Kept capacity := by
  refine ⟨?_, RingQueue.init_valid hpos hmemory, ?_⟩
  · simp [created, RingQueue.init, hpos]
  · show [] = [] ++ (q.init capacity (some memory) true true).2.stored
    rw [RingQueue.init_stored hpos]
    rfl

/-- For every capacity and every sequence of calls, the fields of the queue are those of a bounded
FIFO: what it stores from `head` on are the elements pushed and not popped yet, in order, a push
is refused, and then changes nothing, exactly when there is no room, and a pop, which waits only
for an element, returns the oldest one. -/
theorem ring_queue_refines_fifo (hpos : capacity ≠ 0) (hmemory : memory.length = capacity.toNat)
    (h : Run Step (created q capacity memory) calls s) :
    s.queue.head < capacity ∧ s.queue.tail < capacity ∧ s.queue.size ≤ capacity ∧
      s.queue.tail.toNat = (s.queue.head.toNat + s.queue.size.toNat) % capacity.toNat ∧
      s.pushed.map some = s.popped ++ s.queue.stored ∧
      (∀ element,
        ((s.queue.push element).1 = .actionFailed ↔ s.queue.size = capacity) ∧
        (s.queue.size = capacity → (s.queue.push element).2 = s.queue) ∧
        (s.queue.size ≠ capacity → (s.queue.push element).1 = .successful ∧
          (s.queue.push element).2.stored = s.queue.stored ++ [some element])) ∧
      (s.queue.pop = none ↔ s.queue.stored = []) ∧
      ∀ element rest, s.queue.stored = element :: rest →
        ∃ queue, s.queue.pop = some (.successful, element, queue) ∧ queue.stored = rest := by
  obtain ⟨rfl, hvalid, hpushed⟩ :=
    h.invariant (created_kept hpos hmemory) fun _ _ _ hs hst => hs.step hst
  refine ⟨hvalid.head_lt, hvalid.tail_lt, hvalid.size_le, hvalid.tail_eq, hpushed, ?_, ?_, ?_⟩
  · intro element
    by_cases hfull : s.queue.size = s.queue.capacity
    · have hpush := hvalid.push_full element hfull
      exact ⟨by simp [hpush, hfull], fun _ => by rw [hpush], fun hroom => absurd hfull hroom⟩
    · obtain ⟨hstatus, -, -, hstored⟩ := hvalid.push_room element hfull
      exact ⟨by simp [hstatus, hfull], fun h => absurd h hfull, fun _ => ⟨hstatus, hstored⟩⟩
  · by_cases hempty : s.queue.size = 0
    · simp [hvalid.pop_empty hempty, RingQueue.stored, hempty]
    · obtain ⟨element, queue, hpop, -, -, hstored⟩ := hvalid.pop_some hempty
      simp [hpop, hstored]
  · intro element rest hcons
    have hsome : s.queue.size ≠ 0 := by
      intro hempty
      simp [RingQueue.stored, hempty] at hcons
    obtain ⟨oldest, queue, hpop, -, -, hstored⟩ := hvalid.pop_some hsome
    rw [hcons, List.cons.injEq] at hstored
    obtain ⟨rfl, rfl⟩ := hstored
    exact ⟨queue, hpop, rfl⟩

/-- Two elements fill the queue, a third one is refused, and after a pop it goes around the end
of the buffer. -/
def cyclic : List (RingCall ℕ) := [.push 1, .push 2, .push 3, .pop, .push 3]

theorem ring_queue_refines_fifo_cyclic :
    ∃ s, Run Step (created ⟨none, 0, 0, 0, 0⟩ 2 [0, 0]) cyclic s ∧
      s.pushed = [1, 2, 3] ∧ s.queue.head = 1 ∧ s.queue.tail = 1 ∧
      s.queue.stored = [some 2, some 3] ∧
      s.pushed.map some = s.popped ++ s.queue.stored := by
  have hfacts : (exec apply (created ⟨none, 0, 0, 0, 0⟩ 2 [0, 0]) cyclic).map
      (fun s => (s.pushed, s.queue.head, s.queue.tail, s.queue.stored)) =
        some ([1, 2, 3], 1, 1, [some 2, some 3]) := by decide +kernel
  obtain ⟨s, hexec, hs⟩ := Option.map_eq_some_iff.mp hfacts
  have hrun : Run Step (created ⟨none, 0, 0, 0, 0⟩ 2 [0, 0]) cyclic s := Run.of_exec hexec
  have hfifo := ring_queue_refines_fifo (by decide) rfl hrun
  simp only [Prod.mk.injEq] at hs
  exact ⟨s, hrun, hs.1, hs.2.1, hs.2.2.1, hs.2.2.2, hfifo.2.2.2.2.1⟩

end RingHistory

end SnipeIt.Util
