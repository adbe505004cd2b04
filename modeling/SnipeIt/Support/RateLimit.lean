import Mathlib.Algebra.Order.Monoid.Defs
import Mathlib.Data.List.Chain
import Mathlib.Tactic.Common

/-! # A limit on the rate of events

A limiter lets an event pass if the last one that passed is at least a period
old. The events that pass keep their distance, and none of the others is further than a
period behind one that passed.
-/

namespace SnipeIt.Support.RateLimit

variable {τ : Type*} [AddCommMonoid τ] [LinearOrder τ]

/-- The times of `ts` that pass, after an event at `last`. -/
def passed (period : τ) : Option τ → List τ → List τ
  | _, [] => []
  | last, t :: ts =>
    if ∀ l ∈ last, l + period ≤ t then t :: passed period (some t) ts else passed period last ts

/-- Each time is a period behind the one before. -/
def Spaced (period : τ) (ts : List τ) : Prop := ts.IsChain fun a b => a + period ≤ b

variable {period : τ} {ts : List τ}

theorem passed_spaced (period : τ) (last : Option τ) (ts : List τ) :
    Spaced period (last.toList ++ passed period last ts) := by
  induction ts generalizing last with
  | nil => cases last <;> simp [passed, Spaced]
  | cons t ts ih =>
    rw [passed]
    split_ifs with hdue
    · have hrest : Spaced period (t :: passed period (some t) ts) := ih (some t)
      cases last with
      | none => exact hrest
      | some l => exact List.isChain_cons_cons.mpr ⟨hdue l rfl, hrest⟩
    · exact ih last

/-- Every event in its order is less than a period behind one that passed, or passes itself. -/
theorem exists_passed (period : τ) {last : Option τ} (hlast : ∀ l ∈ last, ∀ t ∈ ts, l ≤ t)
    (hts : ts.Pairwise (· ≤ ·)) {t : τ} (ht : t ∈ ts) :
    ∃ p ∈ last.toList ++ passed period last ts, p ≤ t ∧ (t = p ∨ t < p + period) := by
  induction ts generalizing last with
  | nil => cases ht
  | cons t' ts ih =>
    obtain ⟨hle, hts⟩ := List.pairwise_cons.mp hts
    rw [passed]
    split_ifs with hdue
    · rcases List.mem_cons.mp ht with rfl | ht
      · exact ⟨t, by simp, le_rfl, .inl rfl⟩
      · have hlater : ∀ l ∈ some t', ∀ t ∈ ts, l ≤ t := by simpa using hle
        obtain ⟨p, hp, hpt⟩ := ih hlater hts ht
        exact ⟨p, List.mem_append_right _ hp, hpt⟩
    · rcases List.mem_cons.mp ht with rfl | ht
      · push Not at hdue
        obtain ⟨l, hl, hlt⟩ := hdue
        refine ⟨l, List.mem_append_left _ ?_, hlast l hl t List.mem_cons_self, .inr hlt⟩
        rw [Option.mem_toList]
        exact hl
      · exact ih (fun l hl t ht => hlast l hl t (List.mem_cons_of_mem t' ht)) hts ht

section Ordered

variable [IsOrderedAddMonoid τ]

theorem Spaced.pairwise (h : Spaced period ts) (hpos : 0 ≤ period) :
    ts.Pairwise fun a b => a + period ≤ b := by
  induction ts with
  | nil => exact .nil
  | cons t ts ih =>
    have hrest := ih h.tail
    refine List.pairwise_cons.mpr ⟨fun t' ht' => ?_, hrest⟩
    cases ts with
    | nil => cases ht'
    | cons u ts =>
      have hnext := (List.isChain_cons_cons.mp h).1
      rcases List.mem_cons.mp ht' with rfl | ht'
      · exact hnext
      · exact hnext.trans
          ((le_add_of_nonneg_right hpos).trans ((List.pairwise_cons.mp hrest).1 t' ht'))

theorem Spaced.sublist {ts' : List τ} (h : Spaced period ts) (hpos : 0 ≤ period)
    (hsub : List.Sublist ts' ts) : Spaced period ts' :=
  ((h.pairwise hpos).sublist hsub).isChain

/-- Spaced times in an interval of `k` periods are no more than `k`. -/
theorem Spaced.length_le (h : Spaced period ts) (hpos : 0 ≤ period) {a : τ}
    {k : ℕ} (hlow : ∀ t ∈ ts, a ≤ t) (hhigh : ∀ t ∈ ts, t < a + k • period) : ts.length ≤ k := by
  induction k generalizing ts a with
  | zero =>
    cases ts with
    | nil => exact Nat.zero_le _
    | cons t ts =>
      have hlt := hhigh t List.mem_cons_self
      rw [zero_nsmul, add_zero] at hlt
      exact absurd (hlow t List.mem_cons_self) hlt.not_ge
  | succ k ih =>
    cases ts with
    | nil => exact Nat.zero_le _
    | cons t ts =>
      have hlater : ∀ t' ∈ ts, a + period ≤ t' := fun t' ht' =>
        (add_le_add_left (hlow t List.mem_cons_self) period).trans
          ((List.pairwise_cons.mp (h.pairwise hpos)).1 t' ht')
      refine Nat.succ_le_succ (ih h.tail hlater fun t' ht' => ?_)
      rw [add_assoc, ← succ_nsmul']
      exact hhigh t' (List.mem_cons_of_mem t ht')

end Ordered

end SnipeIt.Support.RateLimit
