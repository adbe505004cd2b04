import Mathlib.Data.Finset.Card
import Mathlib.Tactic.Common

/-! # Condition variables

The threads that wait on a condition variable, and those that a signal has woken
and that have not looked at the condition since. A signal wakes at least one
sleeper where there is one; a sleeper may also wake without a signal.
-/

namespace SnipeIt.Support

structure CondVar (κ : Type*) where
  asleep : Finset κ
  signalled : Finset κ
  disjoint : Disjoint asleep signalled

namespace CondVar

variable {κ : Type*} [DecidableEq κ]

def init : CondVar κ := ⟨∅, ∅, Finset.disjoint_empty_left _⟩

/-- A thread that has looked at the condition goes to sleep. -/
def wait (v : CondVar κ) (c : κ) : CondVar κ where
  asleep := insert c v.asleep
  signalled := v.signalled.erase c
  disjoint := by
    rw [Finset.disjoint_insert_left]
    exact ⟨Finset.notMem_erase c _, v.disjoint.mono_right (Finset.erase_subset c _)⟩

/-- A thread that has looked at the condition goes on. -/
def leave (v : CondVar κ) (c : κ) : CondVar κ where
  asleep := v.asleep
  signalled := v.signalled.erase c
  disjoint := v.disjoint.mono_right (Finset.erase_subset c _)

/-- A signal wakes some of the sleepers. -/
def signal (v : CondVar κ) (woken : Finset κ) : CondVar κ where
  asleep := v.asleep \ woken
  signalled := v.signalled ∪ woken
  disjoint := by
    rw [Finset.disjoint_union_right]
    exact ⟨v.disjoint.mono_left Finset.sdiff_subset, Finset.sdiff_disjoint⟩

def rouse (v : CondVar κ) (c : κ) : CondVar κ where
  asleep := v.asleep.erase c
  signalled := v.signalled
  disjoint := v.disjoint.mono_left (Finset.erase_subset c _)

@[simp] theorem asleep_leave (v : CondVar κ) (c : κ) : (v.leave c).asleep = v.asleep := rfl

/-- Whom a signal may wake: some sleeper, where there is one. -/
def Wakes (v : CondVar κ) (woken : Finset κ) : Prop :=
  woken ⊆ v.asleep ∧ (v.asleep.Nonempty → woken.Nonempty)

instance (v : CondVar κ) (woken : Finset κ) : Decidable (v.Wakes woken) :=
  inferInstanceAs (Decidable (_ ∧ _))

/-- While somebody sleeps, no more items are there than threads on their way to look. -/
def Covers (v : CondVar κ) (items : ℕ) : Prop :=
  v.asleep.Nonempty → items ≤ v.signalled.card

theorem card_signal {v : CondVar κ} {woken : Finset κ} (h : woken ⊆ v.asleep) :
    (v.signal woken).signalled.card = v.signalled.card + woken.card :=
  Finset.card_union_of_disjoint (v.disjoint.symm.mono_right h)

/-- One signal accounts for one new item, whomever it wakes. -/
theorem Covers.signal {v : CondVar κ} {items : ℕ} (h : v.Covers items) {woken : Finset κ}
    (hw : v.Wakes woken) : (v.signal woken).Covers (items + 1) := by
  intro hasleep
  have hslept : v.asleep.Nonempty := hasleep.mono Finset.sdiff_subset
  have hwoken : 0 < woken.card := (hw.2 hslept).card_pos
  have hitems : items ≤ v.signalled.card := h hslept
  rw [card_signal hw.1]
  omega

/-- A thread that takes an item may be one that was on its way. -/
theorem Covers.leave {v : CondVar κ} {items : ℕ} (h : v.Covers (items + 1)) (c : κ) :
    (v.leave c).Covers items := by
  intro hasleep
  have hitems : items + 1 ≤ v.signalled.card := h hasleep
  have hcard : v.signalled.card - 1 ≤ (v.signalled.erase c).card := Finset.pred_card_le_card_erase
  show items ≤ (v.signalled.erase c).card
  omega

theorem Covers.wait (v : CondVar κ) (c : κ) : (v.wait c).Covers 0 :=
  fun _ => Nat.zero_le _

theorem Covers.rouse {v : CondVar κ} {items : ℕ} (h : v.Covers items) (c : κ) :
    (v.rouse c).Covers items :=
  fun hasleep => h (hasleep.mono (Finset.erase_subset c _))

end CondVar

end SnipeIt.Support
