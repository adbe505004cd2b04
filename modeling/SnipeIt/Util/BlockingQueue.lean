import SnipeIt.Status
import SnipeIt.Support.CondVar
import SnipeIt.Support.Ring
import SnipeIt.Support.Run

/-! # The blocking queue

`util_queue_push` and `util_queue_pop` between any number of threads. What a
thread does while it holds the queue's mutex is one step: a whole push, or one
look of a pop at `size`, which either takes an element or falls asleep.
-/

namespace SnipeIt.Util
open Support

variable {β κ : Type*} [DecidableEq κ] {capacity : ℕ}

structure Queue (β κ : Type*) (capacity : ℕ) where
  buffer : Ring β capacity
  notEmpty : CondVar κ

namespace Queue

/-- `util_queue_init`, over the memory that the buffer has got. -/
def init (slots : Fin capacity → β) (h : 0 < capacity) : Queue β κ capacity :=
  ⟨Ring.init slots h, CondVar.init⟩

/-- `util_queue_push`, whose signal wakes the given threads. -/
def push (q : Queue β κ capacity) (element : β) (woken : Finset κ) : Status × Queue β κ capacity :=
  if hfull : q.buffer.count = capacity then (.actionFailed, q)
  else
    (.successful,
      { buffer := q.buffer.put element (lt_of_le_of_ne q.buffer.count_le hfull)
        notEmpty := q.notEmpty.signal woken })

/-- The loop of `util_queue_pop` once around: what thread `c` returns, if it need not wait. -/
def pop (q : Queue β κ capacity) (c : κ) : Option β × Queue β κ capacity :=
  if h : 0 < q.buffer.count then
    (some q.buffer.front, { buffer := q.buffer.drop h, notEmpty := q.notEmpty.leave c })
  else (none, { q with notEmpty := q.notEmpty.wait c })

theorem push_successful_iff {q : Queue β κ capacity} {element : β} {woken : Finset κ} :
    (q.push element woken).1 = .successful ↔ q.buffer.count ≠ capacity := by
  by_cases hfull : q.buffer.count = capacity
  · simp [push, hfull]
  · simp [push, hfull]

end Queue

/-- A queue with the elements that pushes have stored, and those that pops have returned and to
which thread, in order. -/
structure Traffic (β κ : Type*) (capacity : ℕ) where
  queue : Queue β κ capacity
  accepted : List β
  returned : List (κ × β)

inductive QueueAct (β κ : Type*) where
  /-- A push, with the threads that its signal wakes. -/
  | push (element : β) (woken : Finset κ)
  /-- A thread that has called pop, or has woken up in it, looks at the size. -/
  | pop (c : κ)
  /-- A spurious wake-up. -/
  | rouse (c : κ)

namespace Traffic

def init (slots : Fin capacity → β) (h : 0 < capacity) : Traffic β κ capacity :=
  ⟨Queue.init slots h, [], []⟩

def apply (s : Traffic β κ capacity) : QueueAct β κ → Option (Traffic β κ capacity)
  | .push element woken =>
    match s.queue.push element woken with
    | (.successful, queue) =>
      if s.queue.notEmpty.Wakes woken then
        some { s with queue := queue, accepted := s.accepted ++ [element] }
      else none
    | (_, queue) => some { s with queue := queue }
  | .pop c =>
    if c ∈ s.queue.notEmpty.asleep then none
    else
      match s.queue.pop c with
      | (some element, queue) =>
        some { s with queue := queue, returned := s.returned ++ [(c, element)] }
      | (none, queue) => some { s with queue := queue }
  | .rouse c =>
    if c ∈ s.queue.notEmpty.asleep then
      some { s with queue := { s.queue with notEmpty := s.queue.notEmpty.rouse c } }
    else none

def Step (s : Traffic β κ capacity) (a : QueueAct β κ) (t : Traffic β κ capacity) : Prop :=
  s.apply a = some t

/-- What a step does. -/
inductive Does (s : Traffic β κ capacity) : QueueAct β κ → Traffic β κ capacity → Prop where
  | store {element : β} {woken : Finset κ} (hroom : s.queue.buffer.count < capacity)
      (hwakes : s.queue.notEmpty.Wakes woken) :
      Does s (.push element woken)
        { queue := ⟨s.queue.buffer.put element hroom, s.queue.notEmpty.signal woken⟩
          accepted := s.accepted ++ [element]
          returned := s.returned }
  | refuse {element : β} {woken : Finset κ} (hfull : s.queue.buffer.count = capacity) :
      Does s (.push element woken) s
  | take {c : κ} (hawake : c ∉ s.queue.notEmpty.asleep) (hsome : 0 < s.queue.buffer.count) :
      Does s (.pop c)
        { queue := ⟨s.queue.buffer.drop hsome, s.queue.notEmpty.leave c⟩
          accepted := s.accepted
          returned := s.returned ++ [(c, s.queue.buffer.front)] }
  | sleep {c : κ} (hawake : c ∉ s.queue.notEmpty.asleep) (hempty : s.queue.buffer.count = 0) :
      Does s (.pop c) { s with queue := { s.queue with notEmpty := s.queue.notEmpty.wait c } }
  | rouse {c : κ} (hasleep : c ∈ s.queue.notEmpty.asleep) :
      Does s (.rouse c) { s with queue := { s.queue with notEmpty := s.queue.notEmpty.rouse c } }

theorem step_does {s t : Traffic β κ capacity} {a : QueueAct β κ} (h : Step s a t) :
    Does s a t := by
  cases a with
  | push element woken =>
    by_cases hfull : s.queue.buffer.count = capacity
    · simp only [Step, apply, Queue.push, dif_pos hfull, Option.some.injEq] at h
      subst h
      exact .refuse hfull
    · simp only [Step, apply, Queue.push, dif_neg hfull] at h
      split_ifs at h with hwakes
      cases h
      exact .store (lt_of_le_of_ne s.queue.buffer.count_le hfull) hwakes
  | pop c =>
    by_cases hasleep : c ∈ s.queue.notEmpty.asleep
    · simp [Step, apply, hasleep] at h
    by_cases hsome : 0 < s.queue.buffer.count
    · simp only [Step, apply, Queue.pop, if_neg hasleep, dif_pos hsome] at h
      cases h
      exact .take hasleep hsome
    · simp only [Step, apply, Queue.pop, if_neg hasleep, dif_neg hsome] at h
      cases h
      exact .sleep hasleep (Nat.eq_zero_of_not_pos hsome)
  | rouse c =>
    simp only [Step, apply] at h
    split_ifs at h with hasleep
    cases h
    exact .rouse hasleep

/-- Nothing is lost: what was stored has been returned, in order, or is still there, and no
wake-up is missing. -/
structure Kept (s : Traffic β κ capacity) : Prop where
  content : s.accepted = s.returned.map Prod.snd ++ s.queue.buffer.content
  covers : s.queue.notEmpty.Covers s.queue.buffer.count

omit [DecidableEq κ] in
theorem Kept.init (slots : Fin capacity → β) (h : 0 < capacity) :
    (init slots h : Traffic β κ capacity).Kept where
  content := rfl
  covers := fun _ => Nat.zero_le _

theorem Kept.step {s t : Traffic β κ capacity} {a : QueueAct β κ} (hs : s.Kept)
    (h : Step s a t) : t.Kept := by
  cases step_does h with
  | store hroom hwakes =>
    refine ⟨?_, hs.covers.signal hwakes⟩
    rw [hs.content, Ring.content_put, List.append_assoc]
  | refuse => exact hs
  | @take c _ hsome =>
    have hcovers : s.queue.notEmpty.Covers (s.queue.buffer.count - 1 + 1) := by
      rw [Nat.sub_add_cancel hsome]
      exact hs.covers
    refine ⟨?_, hcovers.leave c⟩
    rw [hs.content, s.queue.buffer.content_eq_front_cons hsome]
    simp
  | @sleep c _ hempty =>
    refine ⟨hs.content, ?_⟩
    show (s.queue.notEmpty.wait c).Covers s.queue.buffer.count
    rw [hempty]
    exact CondVar.Covers.wait _ c
  | rouse => exact ⟨hs.content, hs.covers.rouse _⟩

theorem run_kept {slots : Fin capacity → β} {hpos : 0 < capacity} {acts : List (QueueAct β κ)}
    {s : Traffic β κ capacity} (h : Run Step (init slots hpos) acts s) : s.Kept :=
  h.invariant (Kept.init slots hpos) fun _ _ _ hs hst => hs.step hst

/-- A pop that returns takes the oldest element of a queue that is not empty. -/
theorem step_returned {s t : Traffic β κ capacity} {a : QueueAct β κ} (h : Step s a t)
    (hret : t.returned ≠ s.returned) :
    ∃ c element rest, a = .pop c ∧ s.queue.buffer.content = element :: rest ∧
      t.returned = s.returned ++ [(c, element)] ∧ t.queue.buffer.content = rest := by
  cases step_does h with
  | store => exact absurd rfl hret
  | refuse => exact absurd rfl hret
  | @take c _ hsome =>
    exact ⟨c, _, _, rfl, s.queue.buffer.content_eq_front_cons hsome, rfl, rfl⟩
  | sleep => exact absurd rfl hret
  | rouse => exact absurd rfl hret

/-- In every run the elements leave in the order in which they were stored, each one once; a pop
returns only from a queue that is not empty, a push is refused only by a full one, and while a
thread is asleep, no more elements are stored than threads have been signalled and have not
looked since. -/
theorem queue_loses_nothing {slots : Fin capacity → β} {hpos : 0 < capacity}
    {acts : List (QueueAct β κ)} {s : Traffic β κ capacity}
    (h : Run Step (init slots hpos) acts s) :
    s.accepted = s.returned.map Prod.snd ++ s.queue.buffer.content ∧
      (s.queue.notEmpty.asleep.Nonempty →
        s.queue.buffer.content.length ≤ s.queue.notEmpty.signalled.card) ∧
      (∀ a t, Step s a t → t.returned ≠ s.returned →
        ∃ c element rest, a = .pop c ∧ s.queue.buffer.content = element :: rest ∧
          t.returned = s.returned ++ [(c, element)] ∧ t.queue.buffer.content = rest) ∧
      ∀ element woken, (s.queue.push element woken).1 ≠ .successful ↔
        s.queue.buffer.content.length = capacity := by
  have hkept := run_kept h
  simp only [Ring.content_length]
  refine ⟨hkept.content, hkept.covers, fun a t hst hret => step_returned hst hret, ?_⟩
  intro element woken
  rw [Ne, Queue.push_successful_iff, not_not]

/-- Threads 0 and 1 fall asleep, a push wakes 1, and 2 takes the element before 1 looks. -/
def barging : List (QueueAct ℕ ℕ) :=
  [.pop 0, .pop 1, .push 7 {1}, .pop 2, .push 8 {0}]

theorem queue_loses_nothing_barging :
    ∃ s : Traffic ℕ ℕ 2, Run Step (init (fun _ => 0) Nat.two_pos) barging s ∧
      s.returned = [(2, 7)] ∧
      s.accepted = s.returned.map Prod.snd ++ s.queue.buffer.content ∧
      (s.queue.notEmpty.asleep.Nonempty →
        s.queue.buffer.content.length ≤ s.queue.notEmpty.signalled.card) := by
  have hreturned : (exec apply (init (fun _ => 0) Nat.two_pos) barging).map
      (·.returned) = some [(2, 7)] := by decide
  obtain ⟨s, hexec, hret⟩ := Option.map_eq_some_iff.mp hreturned
  have hrun : Run Step (init (fun _ => 0) Nat.two_pos) barging s := Run.of_exec hexec
  have hkept := queue_loses_nothing hrun
  exact ⟨s, hrun, hret, hkept.1, hkept.2.1⟩

end Traffic

end SnipeIt.Util
