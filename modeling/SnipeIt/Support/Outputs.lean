import Mathlib.Data.List.Forall2
import SnipeIt.Support.Run

/-! # What a run produces from its labels

Every step may produce one output from its label. The outputs of a run then belong to
some of its labels, in the same order.
-/

namespace SnipeIt.Support
open List

variable {σ α β : Type*} {R : β → α → Prop} {l₀ l₁ : List β} {l₂ : List α}

namespace Outputs

theorem sublist (h : SublistForall₂ R l₁ l₂) (hsub : l₀ <+ l₁) : SublistForall₂ R l₀ l₂ := by
  induction h generalizing l₀ with
  | nil =>
    rw [List.sublist_nil.mp hsub]
    exact .nil
  | @cons b a l₁ l₂ hab hrest ih =>
    cases hsub with
    | cons _ hsub => exact .cons_right (ih hsub)
    | cons_cons _ hsub => exact .cons hab (ih hsub)
  | cons_right _ ih => exact .cons_right (ih hsub)

theorem weaken (h : SublistForall₂ R l₁ l₂) (a : α) : SublistForall₂ R l₁ (l₂ ++ [a]) := by
  obtain ⟨l, hl, hsub⟩ := sublistForall₂_iff.mp h
  exact sublistForall₂_iff.mpr ⟨l, hl, hsub.trans (List.sublist_append_left l₂ [a])⟩

theorem snoc (h : SublistForall₂ R l₁ l₂) {b : β} {a : α} (hab : R b a) :
    SublistForall₂ R (l₁ ++ [b]) (l₂ ++ [a]) := by
  obtain ⟨l, hl, hsub⟩ := sublistForall₂_iff.mp h
  exact sublistForall₂_iff.mpr
    ⟨l ++ [a], rel_append hl (.cons hab .nil), hsub.append (List.Sublist.refl [a])⟩

theorem exists_of_mem (h : SublistForall₂ R l₁ l₂) {b : β} (hb : b ∈ l₁) : ∃ a ∈ l₂, R b a := by
  induction h with
  | nil => cases hb
  | @cons b' a l₁ l₂ hab _ ih =>
    rcases List.mem_cons.mp hb with rfl | hb
    · exact ⟨a, List.mem_cons_self, hab⟩
    · obtain ⟨a', ha', hr⟩ := ih hb
      exact ⟨a', List.mem_cons_of_mem a ha', hr⟩
  | @cons_right a _ _ _ ih =>
    obtain ⟨a', ha', hr⟩ := ih hb
    exact ⟨a', List.mem_cons_of_mem a ha', hr⟩

theorem imp {S : β → α → Prop} (h : SublistForall₂ R l₁ l₂) (hsub : ∀ b, ∀ a ∈ l₂, R b a → S b a) :
    SublistForall₂ S l₁ l₂ := by
  induction h with
  | nil => exact .nil
  | @cons b a l₁ l₂ hab _ ih =>
    exact .cons (hsub b a List.mem_cons_self hab)
      (ih fun b a' ha' => hsub b a' (List.mem_cons_of_mem a ha'))
  | @cons_right a _ _ _ ih =>
    exact .cons_right (ih fun b a' ha' => hsub b a' (List.mem_cons_of_mem a ha'))

end Outputs

theorem Run.outputs {step : σ → α → σ → Prop} {s t : σ} {as : List α} {out : σ → List β}
    (h : Run step s as t) (hstart : out s = [])
    (hstep : ∀ s a t, step s a t → out t = out s ∨ ∃ b, R b a ∧ out t = out s ++ [b]) :
    SublistForall₂ R (out t) as := by
  induction h with
  | nil =>
    rw [hstart]
    exact .nil
  | @snoc as t a u _ hs ih =>
    rcases hstep t a u hs with hsame | ⟨b, hba, happend⟩
    · rw [hsame]
      exact Outputs.weaken ih a
    · rw [happend]
      exact Outputs.snoc ih hba

end SnipeIt.Support
