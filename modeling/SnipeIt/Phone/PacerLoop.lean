import SnipeIt.Phone.Staleness

/-! # The statements of the pacer (`startDetectionPacer`)

The coroutine statement by statement, with batches that arrive between any two of
them. What it hands to the tracker, when it drained the queue and when it emitted is
recorded.
-/

namespace SnipeIt.Phone
open Support

inductive PacerPoint (β : Type*) where
  | receive
  | tryReceive (latest : β)
  /-- The loop that drains the queue has ended, the clock is read next. -/
  | sinceLast (latest : β)
  | delay (latest : β) (resume : ℤ)
  | matchAndSmooth (latest : β)
  /-- The tracker has run, the write of `detectedTargets` is next. -/
  | emit
  /-- The write of `lastEmitAt`. -/
  | stamp

structure PacerHistory (β : Type*) where
  /-- Every batch put on the queue. -/
  sent : List β
  /-- How many of them were taken off. -/
  received : ℕ
  /-- The batches that the tracker got, with their places in `sent`. -/
  processed : List (ℕ × β)
  /-- How many batches had been sent when each drain loop ended. -/
  drains : List ℕ
  /-- When `detectedTargets` was written. -/
  emissions : List ℤ

structure PacerLoop (β : Type*) extends PacerHistory β where
  detectionQueue : List β
  point : PacerPoint β
  lastEmitAt : ℤ
  clock : ℤ

inductive PacerEvent (β : Type*) where
  | trySend (batch : β)
  | run

namespace PacerLoop

variable {β : Type*}

def start (clock : ℤ) : PacerLoop β := ⟨⟨[], 0, [], [], []⟩, [], .receive, 0, clock⟩

def trySend (s : PacerLoop β) (batch : β) : PacerLoop β :=
  { s with detectionQueue := s.detectionQueue ++ [batch], sent := s.sent ++ [batch] }

/-- The next statement of the coroutine, unless it is suspended. -/
def run (s : PacerLoop β) : Option (PacerLoop β) :=
  match s.point with
  | .receive =>
    match s.detectionQueue with
    | [] => none
    | batch :: queue =>
      some
        { s with detectionQueue := queue, point := .tryReceive batch, received := s.received + 1 }
  | .tryReceive latest =>
    match s.detectionQueue with
    | [] => some { s with point := .sinceLast latest, drains := s.drains ++ [s.sent.length] }
    | batch :: queue =>
      some
        { s with detectionQueue := queue, point := .tryReceive batch, received := s.received + 1 }
  | .sinceLast latest =>
    let sinceLast := s.clock - s.lastEmitAt
    if sinceLast < pacerMinOutputIntervalMs then
      some { s with point := .delay latest (s.clock + (pacerMinOutputIntervalMs - sinceLast)) }
    else some { s with point := .matchAndSmooth latest }
  | .delay latest resume =>
    if resume ≤ s.clock then some { s with point := .matchAndSmooth latest } else none
  | .matchAndSmooth latest =>
    some { s with point := .emit, processed := s.processed ++ [(s.received - 1, latest)] }
  | .emit => some { s with point := .stamp, emissions := s.emissions ++ [s.clock] }
  | .stamp => some { s with point := .receive, lastEmitAt := s.clock }

def apply (s : PacerLoop β) : PacerEvent β → Option (PacerLoop β)
  | .trySend batch => some (s.trySend batch)
  | .run => s.run

/-- The clock moves on, but not back, and something happens. -/
def Step (s : PacerLoop β) (e : ℤ × PacerEvent β) (t : PacerLoop β) : Prop :=
  s.clock ≤ e.1 ∧ apply { s with clock := e.1 } e.2 = some t

inductive Runs (s : PacerLoop β) : PacerLoop β → Prop where
  | received {batch : β} {queue : List β} (hpoint : s.point = .receive)
      (hqueue : s.detectionQueue = batch :: queue) :
      Runs s
        { s with detectionQueue := queue, point := .tryReceive batch, received := s.received + 1 }
  | replaced {latest batch : β} {queue : List β} (hpoint : s.point = .tryReceive latest)
      (hqueue : s.detectionQueue = batch :: queue) :
      Runs s
        { s with detectionQueue := queue, point := .tryReceive batch, received := s.received + 1 }
  | drained {latest : β} (hpoint : s.point = .tryReceive latest) (hqueue : s.detectionQueue = []) :
      Runs s { s with point := .sinceLast latest, drains := s.drains ++ [s.sent.length] }
  | waits {latest : β} (hpoint : s.point = .sinceLast latest)
      (hearly : s.clock - s.lastEmitAt < pacerMinOutputIntervalMs) :
      Runs s
        { s with
          point := .delay latest
            (s.clock + (pacerMinOutputIntervalMs - (s.clock - s.lastEmitAt))) }
  | goesOn {latest : β} (hpoint : s.point = .sinceLast latest)
      (hlate : pacerMinOutputIntervalMs ≤ s.clock - s.lastEmitAt) :
      Runs s { s with point := .matchAndSmooth latest }
  | resumes {latest : β} {resume : ℤ} (hpoint : s.point = .delay latest resume)
      (hle : resume ≤ s.clock) : Runs s { s with point := .matchAndSmooth latest }
  | tracks {latest : β} (hpoint : s.point = .matchAndSmooth latest) :
      Runs s { s with point := .emit, processed := s.processed ++ [(s.received - 1, latest)] }
  | emits (hpoint : s.point = .emit) :
      Runs s { s with point := .stamp, emissions := s.emissions ++ [s.clock] }
  | stamps (hpoint : s.point = .stamp) :
      Runs s { s with point := .receive, lastEmitAt := s.clock }

theorem run_runs {s t : PacerLoop β} (h : s.run = some t) : Runs s t := by
  cases hpoint : s.point with
  | receive =>
    simp only [run, hpoint] at h
    cases hqueue : s.detectionQueue with
    | nil => simp [hqueue] at h
    | cons batch queue =>
      simp only [hqueue, Option.some.injEq] at h
      exact h ▸ .received hpoint hqueue
  | tryReceive latest =>
    simp only [run, hpoint] at h
    cases hqueue : s.detectionQueue with
    | nil =>
      simp only [hqueue, Option.some.injEq] at h
      exact h ▸ hqueue ▸ .drained hpoint hqueue
    | cons batch queue =>
      simp only [hqueue, Option.some.injEq] at h
      exact h ▸ .replaced hpoint hqueue
  | sinceLast latest =>
    simp only [run, hpoint] at h
    split_ifs at h with hearly
    · cases h
      exact .waits hpoint hearly
    · cases h
      exact .goesOn hpoint (not_lt.mp hearly)
  | delay latest resume =>
    simp only [run, hpoint] at h
    split_ifs at h with hle
    cases h
    exact .resumes hpoint hle
  | matchAndSmooth latest =>
    simp only [run, hpoint, Option.some.injEq] at h
    exact h ▸ .tracks hpoint
  | emit =>
    simp only [run, hpoint, Option.some.injEq] at h
    exact h ▸ .emits hpoint
  | stamp =>
    simp only [run, hpoint, Option.some.injEq] at h
    exact h ▸ .stamps hpoint

end PacerLoop

namespace PacerHistory

variable {β : Type*}

/-- Everything received before batch number `n` went through the pacer, and in order. -/
structure Handled (h : PacerHistory β) (n : ℕ) : Prop where
  le : ∀ p ∈ h.processed, p.1 < n
  subsequence : (h.processed.map Prod.snd).Sublist (h.sent.take n)
  increasing : h.processed.Pairwise fun p q => p.1 < q.1
  sent : ∀ p ∈ h.processed, h.sent[p.1]? = some p.2

/-- The batches taken off the queue have been handled, the last of them was processed. -/
structure Done (h : PacerHistory β) : Prop where
  handled : h.Handled h.received
  drains : h.drains = h.processed.map fun p => p.1 + 1
  last : 0 < h.received → ∃ p, h.processed.getLast? = some p ∧ p.1 + 1 = h.received

structure Holds (h : PacerHistory β) (latest : β) (drains : List ℕ) : Prop where
  received : 0 < h.received
  latest : h.sent[h.received - 1]? = some latest
  handled : h.Handled (h.received - 1)
  drains : h.drains = (h.processed.map fun p => p.1 + 1) ++ drains

/-- What the pacer has done so far, by the statement that comes next. -/
def AtPoint (h : PacerHistory β) : PacerPoint β → Prop
  | .receive | .emit | .stamp => h.Done
  | .tryReceive latest => h.Holds latest []
  | .sinceLast latest | .delay latest _ | .matchAndSmooth latest => h.Holds latest [h.received]

variable {h : PacerHistory β} {latest : β} {drains : List ℕ} {n : ℕ}

theorem Handled.mono (hn : h.Handled n) {m : ℕ} (hle : n ≤ m) : h.Handled m where
  le p hp := Nat.lt_of_lt_of_le (hn.le p hp) hle
  subsequence := hn.subsequence.trans (List.take_sublist_take_left hle)
  increasing := hn.increasing
  sent := hn.sent

/-- A batch that arrives changes nothing about those that were received. -/
theorem Handled.arrive (hn : h.Handled n) (hle : n ≤ h.sent.length) (batch : β) :
    Handled { h with sent := h.sent ++ [batch] } n where
  le := hn.le
  subsequence := by
    rw [List.take_append_of_le_length hle]
    exact hn.subsequence
  increasing := hn.increasing
  sent p hp := by
    have hlt := (List.getElem?_eq_some_iff.mp (hn.sent p hp)).1
    rw [List.getElem?_append_left hlt]
    exact hn.sent p hp

theorem Holds.arrive (hh : h.Holds latest drains) (hle : h.received ≤ h.sent.length) (batch : β) :
    Holds { h with sent := h.sent ++ [batch] } latest drains where
  received := hh.received
  latest := by
    have hpos := hh.received
    have hlt : h.received - 1 < h.sent.length := by omega
    rw [List.getElem?_append_left hlt]
    exact hh.latest
  handled := hh.handled.arrive (Nat.le_trans (Nat.sub_le _ _) hle) batch
  drains := hh.drains

theorem AtPoint.arrive {p : PacerPoint β} (hp : h.AtPoint p) (hle : h.received ≤ h.sent.length)
    (batch : β) : AtPoint { h with sent := h.sent ++ [batch] } p := by
  cases p with
  | receive | emit | stamp => exact ⟨hp.handled.arrive hle batch, hp.drains, hp.last⟩
  | tryReceive _ | sinceLast _ | delay _ _ | matchAndSmooth _ => exact Holds.arrive hp hle batch

theorem Done.emitted (hd : h.Done) (now : ℤ) :
    Done { h with emissions := h.emissions ++ [now] } where
  handled := ⟨hd.handled.le, hd.handled.subsequence, hd.handled.increasing, hd.handled.sent⟩
  drains := hd.drains
  last := hd.last

theorem Holds.drained (hh : h.Holds latest []) (hall : h.received = h.sent.length) :
    Holds { h with drains := h.drains ++ [h.sent.length] } latest [h.received] where
  received := hh.received
  latest := hh.latest
  handled := ⟨hh.handled.le, hh.handled.subsequence, hh.handled.increasing, hh.handled.sent⟩
  drains := by rw [hh.drains, List.append_nil, hall]

theorem Holds.processed (hh : h.Holds latest [h.received]) :
    Done { h with processed := h.processed ++ [(h.received - 1, latest)] } where
  handled :=
    { le := by
        intro p hp
        have hpos := hh.received
        rcases List.mem_append.mp hp with hp | hp
        · exact Nat.lt_of_lt_of_le (hh.handled.le p hp) (Nat.sub_le _ _)
        · rw [List.mem_singleton.mp hp]
          exact Nat.sub_lt hpos Nat.one_pos
      subsequence := by
        have hpos := hh.received
        have htake : h.sent.take h.received = h.sent.take (h.received - 1) ++ [latest] := by
          have hsucc : h.received = h.received - 1 + 1 := by omega
          rw [hsucc, List.take_add_one, Nat.add_sub_cancel, hh.latest]
          rfl
        rw [List.map_append, htake]
        exact hh.handled.subsequence.append (List.Sublist.refl _)
      increasing := by
        refine List.pairwise_append.mpr ⟨hh.handled.increasing, List.pairwise_singleton _ _, ?_⟩
        intro p hp q hq
        rw [List.mem_singleton.mp hq]
        exact hh.handled.le p hp
      sent := by
        intro p hp
        rcases List.mem_append.mp hp with hp | hp
        · exact hh.handled.sent p hp
        · rw [List.mem_singleton.mp hp]
          exact hh.latest }
  drains := by
    rw [hh.drains, List.map_append, List.map_singleton, Nat.sub_add_cancel hh.received]
  last _ := ⟨(h.received - 1, latest), List.getLast?_concat, Nat.sub_add_cancel hh.received⟩

end PacerHistory

namespace PacerLoop

variable {β : Type*}

/-- The emissions so far are old enough for what the pacer does next. -/
def Spaced (emissions : List ℤ) (lastEmitAt clock : ℤ) : PacerPoint β → Prop
  | .receive | .tryReceive _ | .sinceLast _ => ∀ e ∈ emissions, e ≤ lastEmitAt
  | .delay _ resume => ∀ e ∈ emissions, e + pacerMinOutputIntervalMs ≤ resume
  | .matchAndSmooth _ | .emit => ∀ e ∈ emissions, e + pacerMinOutputIntervalMs ≤ clock
  | .stamp => ∀ e ∈ emissions, e ≤ clock

theorem Spaced.later {emissions : List ℤ} {lastEmitAt clock now : ℤ} {p : PacerPoint β}
    (h : Spaced emissions lastEmitAt clock p) (hle : clock ≤ now) :
    Spaced emissions lastEmitAt now p := by
  cases p with
  | receive | tryReceive _ | sinceLast _ | delay _ _ => exact h
  | matchAndSmooth _ | emit | stamp => exact fun e he => (h e he).trans hle

structure Inv (s : PacerLoop β) : Prop where
  received : s.received ≤ s.sent.length
  queue : s.detectionQueue = s.sent.drop s.received
  atPoint : s.AtPoint s.point
  spaced : Spaced s.emissions s.lastEmitAt s.clock s.point
  emissions : s.emissions.Pairwise fun e f => e + pacerMinOutputIntervalMs ≤ f

variable {s t : PacerLoop β} {now : ℤ} {batch latest : β}

theorem start_inv (clock : ℤ) : (start clock : PacerLoop β).Inv where
  received := Nat.le_refl _
  queue := rfl
  atPoint :=
    { handled := ⟨fun p hp => (by cases hp), List.nil_sublist _, List.Pairwise.nil,
        fun p hp => (by cases hp)⟩
      drains := rfl
      last := fun h => absurd h (Nat.lt_irrefl 0) }
  spaced := fun e he => (by cases he)
  emissions := List.Pairwise.nil

theorem Inv.later (h : s.Inv) (hle : s.clock ≤ now) : Inv { s with clock := now } :=
  ⟨h.received, h.queue, h.atPoint, h.spaced.later hle, h.emissions⟩

theorem Inv.trySend (h : s.Inv) (batch : β) : (s.trySend batch).Inv where
  received := by
    rw [PacerLoop.trySend, List.length_append]
    exact Nat.le_add_right_of_le h.received
  queue := by
    rw [PacerLoop.trySend, h.queue, List.drop_append_of_le_length h.received]
  atPoint := h.atPoint.arrive h.received batch
  spaced := h.spaced
  emissions := h.emissions

/-- The batch at the head of the queue is the first that was not received. -/
theorem Inv.head (h : s.Inv) {queue : List β} (hqueue : s.detectionQueue = batch :: queue) :
    s.received < s.sent.length ∧ s.sent[s.received]? = some batch ∧
      queue = s.sent.drop (s.received + 1) := by
  have hdrop := h.queue.symm.trans hqueue
  have hlt : s.received < s.sent.length := by
    by_contra hnot
    rw [List.drop_eq_nil_of_le (Nat.not_lt.mp hnot)] at hdrop
    cases hdrop
  rw [List.drop_eq_getElem_cons hlt] at hdrop
  obtain ⟨hhead, htail⟩ := List.cons.inj hdrop
  exact ⟨hlt, by rw [List.getElem?_eq_getElem hlt, hhead], htail.symm⟩

theorem Inv.taken (h : s.Inv) {queue : List β} (hqueue : s.detectionQueue = batch :: queue)
    (hhandled : s.Handled s.received)
    (hdrains : s.drains = s.processed.map fun p => p.1 + 1)
    (hspaced : ∀ e ∈ s.emissions, e ≤ s.lastEmitAt) :
    Inv { s with
      detectionQueue := queue
      point := .tryReceive batch
      received := s.received + 1 } := by
  obtain ⟨hlt, hbatch, htail⟩ := h.head hqueue
  exact
    { received := hlt
      queue := htail
      atPoint :=
        { received := Nat.succ_pos _
          latest := hbatch
          handled := ⟨hhandled.le, hhandled.subsequence, hhandled.increasing, hhandled.sent⟩
          drains := by rw [hdrains, List.append_nil] }
      spaced := hspaced
      emissions := h.emissions }

theorem Inv.run (h : s.Inv) (hrun : s.run = some t) : t.Inv := by
  have hat := h.atPoint
  have hspaced := h.spaced
  cases run_runs hrun with
  | received hpoint hqueue =>
    rw [hpoint] at hat hspaced
    exact h.taken hqueue hat.handled hat.drains hspaced
  | replaced hpoint hqueue =>
    rw [hpoint] at hat hspaced
    have hdrains := hat.drains
    rw [List.append_nil] at hdrains
    exact h.taken hqueue (hat.handled.mono (Nat.sub_le _ _)) hdrains hspaced
  | drained hpoint hqueue =>
    rw [hpoint] at hat hspaced
    have hall : s.received = s.sent.length := by
      have hdrop := h.queue.symm.trans hqueue
      exact Nat.le_antisymm h.received (List.drop_eq_nil_iff.mp hdrop)
    exact ⟨h.received, h.queue, hat.drained hall, hspaced, h.emissions⟩
  | waits hpoint hearly =>
    rw [hpoint] at hat hspaced
    refine ⟨h.received, h.queue, hat, fun e he => ?_, h.emissions⟩
    have hle := hspaced e he
    change e + pacerMinOutputIntervalMs ≤ s.clock + _
    omega
  | goesOn hpoint hlate =>
    rw [hpoint] at hat hspaced
    refine ⟨h.received, h.queue, hat, fun e he => ?_, h.emissions⟩
    have hle := hspaced e he
    change e + pacerMinOutputIntervalMs ≤ s.clock
    omega
  | resumes hpoint hresume =>
    rw [hpoint] at hat hspaced
    exact ⟨h.received, h.queue, hat, fun e he => (hspaced e he).trans hresume, h.emissions⟩
  | tracks hpoint =>
    rw [hpoint] at hat hspaced
    exact ⟨h.received, h.queue, hat.processed, hspaced, h.emissions⟩
  | emits hpoint =>
    rw [hpoint] at hat hspaced
    have hinterval : 0 ≤ pacerMinOutputIntervalMs := by decide
    refine ⟨h.received, h.queue, hat.emitted s.clock, fun e he => ?_, ?_⟩
    · change e ≤ s.clock
      rcases List.mem_append.mp he with he | he
      · have hle := hspaced e he
        omega
      · exact (List.mem_singleton.mp he).le
    · refine List.pairwise_append.mpr ⟨h.emissions, List.pairwise_singleton _ _, ?_⟩
      intro e he f hf
      rw [List.mem_singleton.mp hf]
      exact hspaced e he
  | stamps hpoint =>
    rw [hpoint] at hat hspaced
    exact ⟨h.received, h.queue, hat, hspaced, h.emissions⟩

theorem Inv.step {e : ℤ × PacerEvent β} (h : s.Inv) (hstep : Step s e t) : t.Inv := by
  obtain ⟨hle, happly⟩ := hstep
  have hlater := h.later hle
  obtain ⟨now, event⟩ := e
  cases event with
  | trySend batch =>
    cases happly
    exact hlater.trySend batch
  | run => exact hlater.run happly

/-- What the pacer owes to whoever sends it batches. -/
structure Paced (s : PacerLoop β) : Prop where
  subsequence : (s.processed.map Prod.snd).Sublist s.sent
  places : ∀ p ∈ s.processed, s.sent[p.1]? = some p.2
  increasing : s.processed.Pairwise fun p q => p.1 < q.1
  newest : ∀ (k : ℕ) p, s.processed[k]? = some p → s.drains[k]? = some (p.1 + 1)
  spaced : s.emissions.Pairwise fun e f => e + pacerMinOutputIntervalMs ≤ f
  last : s.point = .receive → s.detectionQueue = [] → s.sent ≠ [] →
    ∃ p, s.processed.getLast? = some p ∧ p.1 + 1 = s.sent.length

theorem Inv.handled (h : s.Inv) : s.Handled s.received := by
  have hat := h.atPoint
  cases hpoint : s.point with
  | receive | emit | stamp =>
    rw [hpoint] at hat
    exact hat.handled
  | tryReceive _ | sinceLast _ | delay _ _ | matchAndSmooth _ =>
    rw [hpoint] at hat
    exact hat.handled.mono (Nat.sub_le _ _)

/-- The drain loops that have ended are those of the batches processed, and perhaps one more. -/
theorem Inv.drains (h : s.Inv) :
    ∃ rest, s.drains = (s.processed.map fun p => p.1 + 1) ++ rest := by
  have hat := h.atPoint
  cases hpoint : s.point with
  | receive | emit | stamp =>
    rw [hpoint] at hat
    exact ⟨[], by rw [hat.drains, List.append_nil]⟩
  | tryReceive _ | sinceLast _ | delay _ _ | matchAndSmooth _ =>
    rw [hpoint] at hat
    exact ⟨_, hat.drains⟩

theorem Inv.paced (h : s.Inv) : s.Paced where
  subsequence := h.handled.subsequence.trans (List.take_sublist _ _)
  places := h.handled.sent
  increasing := h.handled.increasing
  newest := by
    intro k p hp
    obtain ⟨rest, hdrains⟩ := h.drains
    have hlt : k < (s.processed.map fun p => p.1 + 1).length := by
      rw [List.length_map]
      exact (List.getElem?_eq_some_iff.mp hp).1
    rw [hdrains, List.getElem?_append_left hlt, List.getElem?_map, hp]
    rfl
  spaced := h.emissions
  last := by
    intro hpoint hqueue hsent
    have hat := h.atPoint
    rw [hpoint] at hat
    have hall : s.received = s.sent.length := by
      have hdrop := h.queue.symm.trans hqueue
      exact Nat.le_antisymm h.received (List.drop_eq_nil_iff.mp hdrop)
    rw [← hall]
    exact hat.last (hall ▸ List.length_pos_iff.mpr hsent)

/-- The pacer handles the batches in order, at intervals, and not without the last one. -/
theorem pacer_paced {clock : ℤ} {events : List (ℤ × PacerEvent β)}
    (h : Run Step (start clock) events s) : s.Paced :=
  (h.invariant (start_inv clock) fun _ _ _ hs hstep => hs.step hstep).paced

/-- The pacer waits for nothing but batches and the end of its delay. -/
theorem run_isSome (s : PacerLoop β) (hreceive : s.point = .receive → s.detectionQueue ≠ [])
    (hdelay : ∀ latest resume, s.point = .delay latest resume → resume ≤ s.clock) :
    s.run.isSome := by
  unfold run
  cases hpoint : s.point with
  | receive =>
    cases hqueue : s.detectionQueue with
    | nil => exact absurd hqueue (hreceive hpoint)
    | cons batch queue => rfl
  | tryReceive latest => cases s.detectionQueue <;> rfl
  | sinceLast latest =>
    dsimp only
    split_ifs <;> rfl
  | delay latest resume =>
    dsimp only
    rw [if_pos (hdelay latest resume hpoint)]
    rfl
  | matchAndSmooth latest => rfl
  | emit => rfl
  | stamp => rfl

/-- Two batches in a burst, and a third one while the pacer is at work. -/
def burst : List (ℤ × PacerEvent String) :=
  [(1000, .trySend "a"), (1001, .trySend "b"), (1002, .run), (1003, .run), (1004, .run),
    (1005, .run), (1006, .trySend "c"), (1007, .run), (1008, .run), (1009, .run), (1010, .run),
    (1011, .run), (1012, .run), (1109, .run), (1110, .run), (1111, .run), (1112, .run)]

theorem pacer_paced_burst : ∃ s : PacerLoop String, Run Step (start 1000) burst s ∧ s.Paced ∧
    s.processed = [(1, "b"), (2, "c")] ∧ s.emissions = [1008, 1111] := by
  have hfacts : (exec (fun (s : PacerLoop String) e => if decide (s.clock ≤ e.1) then
      apply { s with clock := e.1 } e.2 else none) (start 1000) burst).map
        (fun s => (s.processed, s.emissions)) = some ([(1, "b"), (2, "c")], [1008, 1111]) := by
    decide +kernel
  obtain ⟨s, hexec, hs⟩ := Option.map_eq_some_iff.mp hfacts
  have hrun : Run Step (start 1000) burst s :=
    (Run.of_exec_guarded hexec).mono fun _ _ _ h => ⟨of_decide_eq_true h.1, h.2⟩
  exact ⟨s, hrun, pacer_paced hrun, Prod.mk.inj hs⟩

/-! ## The pacer in larger steps -/

section

variable {F : Type*} {s t : PacerLoop (DetectionBatch F)} {c : Overlay F} {now : ℤ}

/-- The client at the same point of the pacer. It has not yet taken what the drain loop is still at
work on, and it may go on at least as early. -/
def Shadow (s : PacerLoop (DetectionBatch F)) (c : DetectionClient F) : Prop :=
  match s.point with
  | .receive => c.pacer = .receiving ∧ c.detectionQueue = s.detectionQueue ∧
      c.lastEmitAt ≤ s.lastEmitAt
  | .tryReceive latest => c.pacer = .receiving ∧
      (∃ older, c.detectionQueue = older ++ latest :: s.detectionQueue) ∧
      c.lastEmitAt ≤ s.lastEmitAt
  | .sinceLast latest => c.detectionQueue = s.detectionQueue ∧ ∃ resume,
      c.pacer = .holding latest resume ∧
      (resume ≤ s.clock ∨ resume ≤ s.lastEmitAt + pacerMinOutputIntervalMs)
  | .delay latest resume' => c.detectionQueue = s.detectionQueue ∧ ∃ resume,
      c.pacer = .holding latest resume ∧ resume ≤ resume'
  | .matchAndSmooth latest => c.detectionQueue = s.detectionQueue ∧ ∃ resume,
      c.pacer = .holding latest resume ∧ resume ≤ s.clock
  | .emit => c.detectionQueue = s.detectionQueue ∧ ∃ tracked, c.pacer = .emitting tracked
  | .stamp => c.pacer = .receiving ∧ c.detectionQueue = s.detectionQueue ∧
      c.lastEmitAt ≤ s.clock

theorem Shadow.later {c : DetectionClient F} (h : Shadow s c) (hle : s.clock ≤ now) :
    Shadow { s with clock := now } c := by
  unfold Shadow at *
  cases hpoint : s.point with
  | receive | tryReceive _ | delay _ _ | emit =>
    simp only [hpoint] at h ⊢
    exact h
  | sinceLast latest =>
    simp only [hpoint] at h ⊢
    obtain ⟨hqueue, resume, hpacer, hresume⟩ := h
    exact ⟨hqueue, resume, hpacer, hresume.imp_left fun h => h.trans hle⟩
  | matchAndSmooth latest =>
    simp only [hpoint] at h ⊢
    obtain ⟨hqueue, resume, hpacer, hresume⟩ := h
    exact ⟨hqueue, resume, hpacer, hresume.trans hle⟩
  | stamp =>
    simp only [hpoint] at h ⊢
    exact ⟨h.1, h.2.1, h.2.2.trans hle⟩

theorem Shadow.trySend {c : DetectionClient F} (h : Shadow s c) (batch : DetectionBatch F) :
    Shadow (s.trySend batch) (c.trySend batch) := by
  unfold Shadow at *
  simp only [PacerLoop.trySend, DetectionClient.trySend] at h ⊢
  cases hpoint : s.point with
  | tryReceive latest =>
    simp only [hpoint] at h ⊢
    obtain ⟨hpacer, ⟨older, hqueue⟩, hemit⟩ := h
    exact ⟨hpacer, ⟨older, by rw [hqueue, List.append_assoc, List.cons_append]⟩, hemit⟩
  | receive | stamp =>
    simp only [hpoint] at h ⊢
    exact ⟨h.1, by rw [h.2.1], h.2.2⟩
  | sinceLast _ | delay _ _ | matchAndSmooth _ | emit =>
    simp only [hpoint] at h ⊢
    exact ⟨by rw [h.1], h.2⟩

theorem run_clock {β : Type*} {s t : PacerLoop β} (h : s.run = some t) : t.clock = s.clock := by
  cases run_runs h <;> rfl

variable [KotlinFloat F]

def Follows (c : DetectionClient F) (now : ℤ) (d : DetectionClient F) : Prop :=
  d = c ∨ c.receive now = some d ∨ c.track now = some d ∨ c.emit now = some d

/-- The drain loop is one step for the client, when it has ended. -/
theorem Shadow.run {c : DetectionClient F} (h : Shadow s c) (hrun : s.run = some t) :
    ∃ d, Follows c s.clock d ∧ Shadow t d := by
  unfold Shadow at h
  cases run_runs hrun with
  | received hpoint hqueue =>
    rw [hpoint] at h
    obtain ⟨hpacer, hsame, hemit⟩ := h
    exact ⟨c, .inl rfl, hpacer, ⟨[], hsame.trans hqueue⟩, hemit⟩
  | @replaced latest _ _ hpoint hqueue =>
    rw [hpoint] at h
    obtain ⟨hpacer, ⟨older, hsame⟩, hemit⟩ := h
    refine ⟨c, .inl rfl, hpacer, ⟨older ++ [latest], ?_⟩, hemit⟩
    rw [hsame, hqueue, List.append_assoc]
    rfl
  | @drained latest hpoint hqueue =>
    rw [hpoint] at h
    obtain ⟨hpacer, ⟨older, hsame⟩, hemit⟩ := h
    rw [hqueue] at hsame
    have hlatest : c.detectionQueue.getLast? = some latest := by
      rw [hsame, List.getLast?_concat]
    refine ⟨_, .inr (.inl (DetectionClient.receive_eq_some.mpr ⟨hpacer, latest, hlatest, rfl⟩)),
      hqueue.symm, _, rfl, ?_⟩
    -- the clock is read later than the client reads it
    change c.resumeAt s.clock ≤ s.clock ∨
      c.resumeAt s.clock ≤ s.lastEmitAt + pacerMinOutputIntervalMs
    unfold DetectionClient.resumeAt
    dsimp only
    split_ifs
    · exact .inr (by omega)
    · exact .inl le_rfl
  | waits hpoint hearly =>
    rw [hpoint] at h
    obtain ⟨hsame, resume, hpacer, hresume⟩ := h
    exact ⟨c, .inl rfl, hsame, resume, hpacer, by omega⟩
  | goesOn hpoint hlate =>
    rw [hpoint] at h
    obtain ⟨hsame, resume, hpacer, hresume⟩ := h
    exact ⟨c, .inl rfl, hsame, resume, hpacer, show resume ≤ s.clock by omega⟩
  | resumes hpoint hle =>
    rw [hpoint] at h
    obtain ⟨hsame, resume, hpacer, hresume⟩ := h
    exact ⟨c, .inl rfl, hsame, resume, hpacer, hresume.trans hle⟩
  | tracks hpoint =>
    rw [hpoint] at h
    obtain ⟨hsame, resume, hpacer, hresume⟩ := h
    exact ⟨_, .inr (.inr (.inl
      (DetectionClient.track_eq_some.mpr ⟨_, resume, hpacer, hresume, rfl⟩))), hsame, _, rfl⟩
  | emits hpoint =>
    rw [hpoint] at h
    obtain ⟨hsame, tracked, hpacer⟩ := h
    exact ⟨_, .inr (.inr (.inr (DetectionClient.emit_eq_some.mpr ⟨tracked, hpacer, rfl⟩))), rfl,
      hsame, le_rfl⟩
  | stamps hpoint =>
    rw [hpoint] at h
    exact ⟨c, .inl rfl, h⟩

/-- Such a step is one of the client with its overlay, or none. -/
theorem Follows.run_overlay {d : DetectionClient F} (h : Follows c.client now d)
    (hle : c.clock ≤ now) : ∃ acts u, Run Overlay.Step c acts u ∧ u.client = d ∧ u.clock ≤ now := by
  rcases h with rfl | hreceive | htrack | hemit
  · exact ⟨[], c, .nil, rfl, hle⟩
  · refine ⟨[⟨now, .receive⟩], ⟨d, now, c.fromWebSocket⟩, .single ?_, rfl, le_rfl⟩
    simp [Overlay.Step, Overlay.apply, hle, hreceive]
  · refine ⟨[⟨now, .track⟩], ⟨d, now, c.fromWebSocket⟩, .single ?_, rfl, le_rfl⟩
    simp [Overlay.Step, Overlay.apply, hle, htrack]
  · refine ⟨[⟨now, .emit⟩], ⟨d, now, true⟩, .single ?_, rfl, le_rfl⟩
    simp [Overlay.Step, Overlay.apply, hle, hemit]

theorem step_shadow {e : ℤ × PacerEvent (DetectionBatch F)} (hstep : Step s e t)
    (h : Shadow s c.client) (hclock : c.clock ≤ s.clock) :
    ∃ acts u, Run Overlay.Step c acts u ∧ Shadow t u.client ∧ u.clock ≤ t.clock := by
  obtain ⟨hle, happly⟩ := hstep
  have hlater := h.later hle
  obtain ⟨now, event⟩ := e
  cases event with
  | trySend batch =>
    cases happly
    refine ⟨[⟨now, .trySend batch⟩], ⟨c.client.trySend batch, now, c.fromWebSocket⟩, .single ?_,
      hlater.trySend batch, le_rfl⟩
    simp [Overlay.Step, Overlay.apply, hclock.trans hle]
  | run =>
    obtain ⟨d, hfollows, hshadow⟩ := hlater.run happly
    obtain ⟨acts, u, hrun, rfl, hu⟩ := hfollows.run_overlay (hclock.trans hle)
    exact ⟨acts, u, hrun, hshadow, hu.trans_eq (run_clock happly).symm⟩

/-- Every run of the statements is one of the client with its overlay. -/
theorem run_shadow {clock : ℤ} {events : List (ℤ × PacerEvent (DetectionBatch F))}
    (h : Run Step (start clock) events s) :
    ∃ acts c, Run Overlay.Step (Overlay.created clock) acts c ∧ Shadow s c.client := by
  have hall : ∃ acts c, Run Overlay.Step (Overlay.created clock) acts c ∧ Shadow s c.client ∧
      c.clock ≤ s.clock := by
    induction h with
    | nil => exact ⟨[], _, .nil, ⟨rfl, rfl, le_rfl⟩, le_rfl⟩
    | snoc _ hstep ih =>
      obtain ⟨acts, c, hrun, hshadow, hclock⟩ := ih
      obtain ⟨acts', u, hrun', hshadow', hclock'⟩ := step_shadow hstep hshadow hclock
      exact ⟨acts ++ acts', u, hrun.append hrun', hshadow', hclock'⟩
  obtain ⟨acts, c, hrun, hshadow, -⟩ := hall
  exact ⟨acts, c, hrun, hshadow⟩

end

end PacerLoop

end SnipeIt.Phone
