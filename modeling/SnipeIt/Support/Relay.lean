import Mathlib.Data.Set.Insert
import SnipeIt.Support.Run

/-! # A copy that is written and read at the same time

One side stores cells, a second copies them cell by cell in passes, and a third
reads the copies cell by cell. Nothing keeps the three apart, so a reading may mix
values of different times; but none of them is older than the last whole pass.
-/

namespace SnipeIt.Support

variable {ι : Type*} {V : ι → Type*}

/-- The cells, their copies and what the last reading has seen, with what the passes still have to
go through. Beside them, what each cell has held since the beginning of the last pass, of the last
whole one, and of the last one that was whole when the reading began. -/
structure Relay (V : ι → Type*) where
  source : ∀ i, V i
  copies : ∀ i, V i
  seen : ∀ i, V i
  toCopy : List ι
  toRead : List ι
  begun : ∀ i, Set (V i)
  whole : ∀ i, Set (V i)
  allowed : ∀ i, Set (V i)

inductive RelayAct (V : ι → Type*) where
  | store (i : ι) (v : V i)
  | beginCopy
  | copy
  | beginRead
  | read

namespace Relay

variable [DecidableEq ι]

def note (sets : ∀ i, Set (V i)) (i : ι) (v : V i) : ∀ i, Set (V i) :=
  Function.update sets i (insert v (sets i))

def start (v : ∀ i, V i) : Relay V :=
  ⟨v, v, v, [], [], fun i => {v i}, fun i => {v i}, fun i => {v i}⟩

/-- The step of an action. A pass copies the cells in one order, and a reading goes by another. -/
def apply (order readOrder : List ι) (s : Relay V) : RelayAct V → Option (Relay V)
  | .store i v => some { s with
      source := Function.update s.source i v
      begun := note s.begun i v
      whole := note s.whole i v
      allowed := note s.allowed i v }
  | .beginCopy =>
    if s.toCopy = [] then some { s with toCopy := order, begun := fun i => {s.source i} } else none
  | .copy =>
    match s.toCopy with
    | [] => none
    | i :: rest => some { s with
        copies := Function.update s.copies i (s.source i)
        toCopy := rest
        whole := if rest = [] then s.begun else s.whole }
  | .beginRead =>
    if s.toRead = [] then some { s with toRead := readOrder, allowed := s.whole } else none
  | .read =>
    match s.toRead with
    | [] => none
    | i :: rest => some { s with
        seen := Function.update s.seen i (s.copies i)
        toRead := rest }

def Step (order readOrder : List ι) (s : Relay V) (a : RelayAct V) (t : Relay V) : Prop :=
  s.apply order readOrder a = some t

variable {order readOrder : List ι} {s t : Relay V}

theorem mem_note {sets : ∀ i, Set (V i)} {i j : ι} {v : V i} {w : V j} (h : w ∈ sets j) :
    w ∈ note sets i v j := by
  rw [note]
  by_cases hij : j = i
  · subst hij
    rw [Function.update_self]
    exact Set.mem_insert_of_mem v h
  · rwa [Function.update_of_ne hij]

theorem update_mem_note {sets : ∀ i, Set (V i)} {f : ∀ i, V i} (h : ∀ j, f j ∈ sets j) (i : ι)
    (v : V i) (j : ι) : Function.update f i v j ∈ note sets i v j := by
  by_cases hij : j = i
  · subst hij
    rw [note, Function.update_self, Function.update_self]
    exact Set.mem_insert v _
  · rw [Function.update_of_ne hij]
    exact mem_note (h j)

theorem note_subset {sets sets' : ∀ i, Set (V i)} (h : ∀ j, sets j ⊆ sets' j) (i : ι) (v : V i)
    (j : ι) : note sets i v j ⊆ note sets' i v j := by
  by_cases hij : j = i
  · subst hij
    simp only [note, Function.update_self]
    exact Set.insert_subset_insert (h j)
  · simp only [note, Function.update_of_ne hij]
    exact h j

/-- The current values are recent, the copies are not older than the last whole pass, and what
this pass or this reading has been through is not older than it. -/
structure Fresh (s : Relay V) : Prop where
  source : ∀ i, s.source i ∈ s.begun i
  begun : ∀ i, s.begun i ⊆ s.whole i
  whole : ∀ i, s.whole i ⊆ s.allowed i
  copies : ∀ i, s.copies i ∈ s.whole i
  copied : ∀ i, i ∉ s.toCopy → s.copies i ∈ s.begun i
  seen : ∀ i, i ∉ s.toRead → s.seen i ∈ s.allowed i

omit [DecidableEq ι] in
theorem start_fresh (v : ∀ i, V i) : (start v).Fresh :=
  ⟨fun _ => rfl, fun _ => subset_rfl, fun _ => subset_rfl, fun _ => rfl, fun _ _ => rfl,
    fun _ _ => rfl⟩

theorem Fresh.store (h : s.Fresh) {i : ι} {v : V i}
    (hstep : Step order readOrder s (.store i v) t) : t.Fresh := by
  cases hstep
  exact ⟨update_mem_note h.source i v, note_subset h.begun i v, note_subset h.whole i v,
    fun j => mem_note (h.copies j), fun j hj => mem_note (h.copied j hj),
    fun j hj => mem_note (h.seen j hj)⟩

theorem Fresh.beginCopy (h : s.Fresh) (horder : ∀ i, i ∈ order)
    (hstep : Step order readOrder s .beginCopy t) : t.Fresh := by
  simp only [Step, apply] at hstep
  split_ifs at hstep
  cases hstep
  exact ⟨fun _ => rfl, fun i => Set.singleton_subset_iff.mpr (h.begun i (h.source i)), h.whole,
    h.copies, fun i hi => absurd (horder i) hi, h.seen⟩

theorem Fresh.copy (h : s.Fresh) (hstep : Step order readOrder s .copy t) : t.Fresh := by
  simp only [Step, apply] at hstep
  split at hstep
  · cases hstep
  next i rest hcopy =>
  have hcopied (j : ι) (hj : j ∉ rest) :
      Function.update s.copies i (s.source i) j ∈ s.begun j := by
    by_cases hij : j = i
    · subst hij
      rw [Function.update_self]
      exact h.source j
    · rw [Function.update_of_ne hij]
      exact h.copied j (by simp [hcopy, hij, hj])
  cases hstep
  by_cases hrest : rest = []
  · subst hrest
    simp only [if_true]
    exact ⟨h.source, fun _ => subset_rfl, fun j => (h.begun j).trans (h.whole j),
      fun j => hcopied j List.not_mem_nil, hcopied, h.seen⟩
  · simp only [if_neg hrest]
    refine ⟨h.source, h.begun, h.whole, fun j => ?_, hcopied, h.seen⟩
    change Function.update s.copies i (s.source i) j ∈ s.whole j
    by_cases hij : j = i
    · subst hij
      rw [Function.update_self]
      exact h.begun j (h.source j)
    · rw [Function.update_of_ne hij]
      exact h.copies j

theorem Fresh.beginRead (h : s.Fresh) (horder : ∀ i, i ∈ readOrder)
    (hstep : Step order readOrder s .beginRead t) : t.Fresh := by
  simp only [Step, apply] at hstep
  split_ifs at hstep
  cases hstep
  exact ⟨h.source, h.begun, fun _ => subset_rfl, h.copies, h.copied,
    fun i hi => absurd (horder i) hi⟩

theorem Fresh.read (h : s.Fresh) (hstep : Step order readOrder s .read t) : t.Fresh := by
  simp only [Step, apply] at hstep
  split at hstep
  · cases hstep
  next i rest hread =>
  cases hstep
  refine ⟨h.source, h.begun, h.whole, h.copies, h.copied, fun j hj => ?_⟩
  change Function.update s.seen i (s.copies i) j ∈ s.allowed j
  by_cases hij : j = i
  · subst hij
    rw [Function.update_self]
    exact h.whole j (h.copies j)
  · rw [Function.update_of_ne hij]
    exact h.seen j (by simpa [hread, hij] using hj)

theorem Fresh.step (h : s.Fresh) (horder : ∀ i, i ∈ order) (hreadOrder : ∀ i, i ∈ readOrder)
    {a : RelayAct V} (hstep : Step order readOrder s a t) : t.Fresh := by
  cases a with
  | store i v => exact h.store hstep
  | beginCopy => exact h.beginCopy horder hstep
  | copy => exact h.copy hstep
  | beginRead => exact h.beginRead hreadOrder hstep
  | read => exact h.read hstep

theorem run_fresh (horder : ∀ i, i ∈ order) (hreadOrder : ∀ i, i ∈ readOrder) {v : ∀ i, V i}
    {acts : List (RelayAct V)} (h : Run (Step order readOrder) (start v) acts t) : t.Fresh :=
  h.invariant (start_fresh v) fun _ _ _ hs hstep => hs.step horder hreadOrder hstep

/-- What a reading has seen in the end is not older than the beginning of the last pass that was
whole when it began. -/
theorem run_seen (horder : ∀ i, i ∈ order) (hreadOrder : ∀ i, i ∈ readOrder) {v : ∀ i, V i}
    {acts : List (RelayAct V)} (h : Run (Step order readOrder) (start v) acts t)
    (hread : t.toRead = []) (i : ι) : t.seen i ∈ t.allowed i :=
  (run_fresh horder hreadOrder h).seen i (by simp [hread])

/-- What is stored satisfies `P`. -/
def Stores (P : ∀ i, V i → Prop) : RelayAct V → Prop
  | .store i v => P i v
  | _ => True

/-- No action brings up a value that was neither there at the start nor stored. -/
theorem allowed_step {P : ∀ i, V i → Prop} {a : RelayAct V} (ha : Stores P a) (hs : s.Fresh)
    (h : ∀ i, ∀ v ∈ s.allowed i, P i v) (hstep : Step order readOrder s a t) :
    ∀ i, ∀ v ∈ t.allowed i, P i v := by
  cases a with
  | store i v =>
    cases hstep
    intro j w hw
    change w ∈ note s.allowed i v j at hw
    by_cases hij : j = i
    · subst hij
      rw [note, Function.update_self] at hw
      rcases Set.mem_insert_iff.mp hw with rfl | hw
      · exact ha
      · exact h j w hw
    · rw [note, Function.update_of_ne hij] at hw
      exact h j w hw
  | beginCopy =>
    simp only [Step, apply] at hstep
    split_ifs at hstep
    cases hstep
    exact h
  | copy =>
    simp only [Step, apply] at hstep
    split at hstep <;> cases hstep
    exact h
  | beginRead =>
    simp only [Step, apply] at hstep
    split_ifs at hstep
    cases hstep
    exact fun i v hv => h i v (hs.whole i hv)
  | read =>
    simp only [Step, apply] at hstep
    split at hstep <;> cases hstep
    exact h

theorem run_allowed (horder : ∀ i, i ∈ order) (hreadOrder : ∀ i, i ∈ readOrder)
    {P : ∀ i, V i → Prop} {v : ∀ i, V i} (hv : ∀ i, P i (v i)) {acts : List (RelayAct V)}
    (hacts : ∀ a ∈ acts, Stores P a) (h : Run (Step order readOrder) (start v) acts t) :
    ∀ i, ∀ w ∈ t.allowed i, P i w := by
  have hstart : ∀ i, ∀ w ∈ (start v).allowed i, P i w := by
    intro i w hw
    rw [Set.mem_singleton_iff.mp hw]
    exact hv i
  have hboth : t.Fresh ∧ ∀ i, ∀ w ∈ t.allowed i, P i w :=
    (h.guard hacts).invariant (P := fun s => s.Fresh ∧ ∀ i, ∀ w ∈ s.allowed i, P i w)
      ⟨start_fresh v, hstart⟩ fun _ _ _ hs hstep =>
        ⟨hs.1.step horder hreadOrder hstep.2, allowed_step hstep.1 hs.1 hs.2 hstep.2⟩
  exact hboth.2

end Relay

end SnipeIt.Support
