import Mathlib.Data.List.Basic
import Mathlib.Data.List.Infix
import Mathlib.Tactic.Common

/-! # Greedy selection

A list is gone through once, from the left, and an element is taken unless it
clashes with one that was taken before. The order of the list is the priority.
-/

namespace SnipeIt.Support.Greedy

variable {α : Type*} (clash : α → α → Bool)

/-- Some element of `chosen` clashes with `a`. -/
def Blocked (chosen : List α) (a : α) : Prop := ∃ b ∈ chosen, clash a b = true

instance (chosen : List α) (a : α) : Decidable (Blocked clash chosen a) :=
  inferInstanceAs (Decidable (∃ b ∈ chosen, clash a b = true))

def take (chosen : List α) (a : α) : List α :=
  if Blocked clash chosen a then chosen else chosen ++ [a]

def select (l : List α) : List α := l.foldl (take clash) []

@[simp] theorem select_nil : select clash ([] : List α) = [] := rfl

theorem select_concat (l : List α) (a : α) :
    select clash (l ++ [a]) = take clash (select clash l) a := by
  simp [select]

section

variable {clash} {l : List α} {a : α}

theorem select_concat_of_blocked (h : Blocked clash (select clash l) a) :
    select clash (l ++ [a]) = select clash l := by
  rw [select_concat, take, if_pos h]

theorem select_concat_of_not_blocked (h : ¬ Blocked clash (select clash l) a) :
    select clash (l ++ [a]) = select clash l ++ [a] := by
  rw [select_concat, take, if_neg h]

end

theorem mem_of_mem_select {l : List α} {a : α} (h : a ∈ select clash l) : a ∈ l := by
  induction l using List.reverseRecOn with
  | nil => simp at h
  | append_singleton l b ih =>
    rw [select_concat, take] at h
    by_cases hblocked : Blocked clash (select clash l) b
    · rw [if_pos hblocked] at h
      exact List.mem_append_left _ (ih h)
    · rw [if_neg hblocked, List.mem_append] at h
      exact List.mem_append.mpr (h.imp_left ih)

theorem select_pairwise (hsymm : ∀ a b, clash a b = clash b a) (l : List α) :
    (select clash l).Pairwise fun a b => clash a b = false := by
  induction l using List.reverseRecOn with
  | nil => exact List.Pairwise.nil
  | append_singleton l b ih =>
    rw [select_concat, take]
    by_cases hblocked : Blocked clash (select clash l) b
    · rwa [if_pos hblocked]
    · rw [if_neg hblocked, List.pairwise_append]
      refine ⟨ih, List.pairwise_singleton _ _, fun a ha b' hb' => ?_⟩
      rw [List.mem_singleton.mp hb', hsymm, Bool.eq_false_iff]
      exact fun h => hblocked ⟨a, ha, h⟩

/-- What is not taken clashes with something that is taken and comes before it. -/
theorem exists_before_of_not_mem_select {r : α → α → Prop} {l : List α} {a : α}
    (hl : l.Pairwise r) (ha : a ∈ l) (hnot : a ∉ select clash l) :
    ∃ b ∈ select clash l, clash a b = true ∧ r b a := by
  induction l using List.reverseRecOn with
  | nil => cases ha
  | append_singleton l b ih =>
    obtain ⟨hl, -, hlast⟩ := List.pairwise_append.mp hl
    rw [select_concat, take] at hnot ⊢
    by_cases hblocked : Blocked clash (select clash l) b
    · rw [if_pos hblocked] at hnot ⊢
      rcases List.mem_append.mp ha with ha | ha
      · exact ih hl ha hnot
      · obtain ⟨c, hc, hclash⟩ := hblocked
        rw [List.mem_singleton.mp ha]
        exact ⟨c, hc, hclash, hlast c (mem_of_mem_select clash hc) b (List.mem_singleton_self b)⟩
    · rw [if_neg hblocked] at hnot ⊢
      rw [List.mem_append, not_or] at hnot
      rcases List.mem_append.mp ha with ha | ha
      · obtain ⟨c, hc, hclash, hbefore⟩ := ih hl ha hnot.1
        exact ⟨c, List.mem_append_left _ hc, hclash, hbefore⟩
      · exact absurd ha hnot.2

/-- The selection goes along with a renaming that keeps the clashes. -/
theorem select_map {β : Type*} (clash' : β → β → Bool) (f : α → β)
    (hf : ∀ a b, clash' (f a) (f b) = clash a b) (l : List α) :
    select clash' (l.map f) = (select clash l).map f := by
  induction l using List.reverseRecOn with
  | nil => rfl
  | append_singleton l b ih =>
    have hiff : Blocked clash' ((select clash l).map f) (f b) ↔
        Blocked clash (select clash l) b := by
      simp only [Blocked, List.mem_map, exists_exists_and_eq_and, hf]
    rw [List.map_append, List.map_singleton, select_concat, select_concat, ih, take, take]
    by_cases hblocked : Blocked clash (select clash l) b
    · rw [if_pos (hiff.mpr hblocked), if_pos hblocked]
    · rw [if_neg (hiff.not.mpr hblocked), if_neg hblocked, List.map_append, List.map_singleton]

/-- Every element with `p` finds itself blocked by what is taken before it when the elements with
`p` are left out. -/
def Displaced (p : α → Bool) (l : List α) : Prop :=
  ∀ before a, before ++ [a] <+: l → p a = true →
    Blocked clash (select clash (before.filter (!p ·))) a

theorem Displaced.concat_iff {p : α → Bool} {l : List α} {a : α} :
    Displaced clash p (l ++ [a]) ↔ Displaced clash p l ∧
      (p a = true → Blocked clash (select clash (l.filter (!p ·))) a) := by
  constructor
  · intro h
    refine ⟨fun before b hb => h before b (hb.trans (List.prefix_append l [a])), ?_⟩
    exact h l a (List.prefix_refl _)
  · rintro ⟨hl, ha⟩ before b hb
    rcases List.prefix_concat_iff.mp hb with heq | hb
    · obtain ⟨rfl, hba⟩ := List.append_inj' heq rfl
      rw [List.singleton_inj.mp hba]
      exact ha
    · exact hl before b hb

/-- The elements with `p` make no difference exactly when they are all displaced. -/
theorem select_avoids (p : α → Bool) (l : List α) :
    ((∀ a ∈ select clash l, p a = false) ↔ Displaced clash p l) ∧
      (Displaced clash p l → select clash l = select clash (l.filter (!p ·))) := by
  induction l using List.reverseRecOn with
  | nil => exact ⟨⟨fun _ before a h => by simp at h, fun _ => by simp⟩, fun _ => rfl⟩
  | append_singleton l b ih =>
    obtain ⟨hiff, heq⟩ := ih
    rw [Displaced.concat_iff, select_concat, List.filter_append]
    by_cases hblocked : Blocked clash (select clash l) b
    · rw [take, if_pos hblocked]
      constructor
      · constructor
        · intro h
          refine ⟨hiff.mp h, fun _ => ?_⟩
          rwa [← heq (hiff.mp h)]
        · exact fun h => hiff.mpr h.1
      · rintro ⟨hl, -⟩
        cases hp : p b with
        | true => simpa [hp] using heq hl
        | false =>
          simp only [hp, List.filter_cons, Bool.not_false, if_true, List.filter_nil]
          rw [select_concat, take, ← heq hl, if_pos hblocked]
    · rw [take, if_neg hblocked]
      constructor
      · constructor
        · intro h
          have hl := hiff.mp fun a ha => h a (List.mem_append_left _ ha)
          have hb := h b (List.mem_append_right _ (List.mem_singleton_self b))
          exact ⟨hl, fun hp => by simp [hb] at hp⟩
        · rintro ⟨hl, hb⟩ a ha
          rcases List.mem_append.mp ha with ha | ha
          · exact hiff.mpr hl a ha
          · rw [List.mem_singleton.mp ha, Bool.eq_false_iff]
            intro hp
            exact hblocked (heq hl ▸ hb hp)
      · rintro ⟨hl, hb⟩
        cases hp : p b with
        | true => exact absurd (heq hl ▸ hb hp) hblocked
        | false =>
          simp only [hp, List.filter_cons, Bool.not_false, if_true, List.filter_nil]
          rw [select_concat, take, ← heq hl, if_neg hblocked]

theorem select_avoids_iff (p : α → Bool) (l : List α) :
    (∀ a ∈ select clash l, p a = false) ↔ Displaced clash p l :=
  (select_avoids clash p l).1

end SnipeIt.Support.Greedy
