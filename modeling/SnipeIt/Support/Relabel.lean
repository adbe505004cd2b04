import Mathlib.Data.List.Sort
import Mathlib.Logic.Equiv.Defs

/-! # Lists in another order

A permutation of a list renumbers its elements. What is then sorted by a key that
tells the elements apart is the same list as before.
-/

namespace SnipeIt.Support

variable {α β : Type*}

/-- The element number `i` of `l` is number `σ i` of `l'`. -/
def Relabels (σ : Equiv.Perm ℕ) (l l' : List α) : Prop := ∀ i, l'[σ i]? = l[i]?

/-- Number 0 stays, the others are renumbered by `σ`. -/
def consLabel (σ : Equiv.Perm ℕ) : Equiv.Perm ℕ where
  toFun
    | 0 => 0
    | i + 1 => σ i + 1
  invFun
    | 0 => 0
    | i + 1 => σ.symm i + 1
  left_inv i := by cases i <;> simp
  right_inv i := by cases i <;> simp

theorem relabels_of_perm {l l' : List α} (h : l.Perm l') : ∃ σ, Relabels σ l l' := by
  induction h with
  | nil => exact ⟨Equiv.refl ℕ, fun _ => rfl⟩
  | cons a _ ih =>
    obtain ⟨σ, hσ⟩ := ih
    refine ⟨consLabel σ, fun i => ?_⟩
    cases i with
    | zero => rfl
    | succ i => exact hσ i
  | swap a b l =>
    refine ⟨Equiv.swap 0 1, fun i => ?_⟩
    match i with
    | 0 => rfl
    | 1 => rfl
    | i + 2 => rw [Equiv.swap_apply_of_ne_of_ne (by omega) (by omega)]; rfl
  | trans _ _ ih₁ ih₂ =>
    obtain ⟨σ, hσ⟩ := ih₁
    obtain ⟨τ, hτ⟩ := ih₂
    exact ⟨σ.trans τ, fun i => (hτ (σ i)).trans (hσ i)⟩

variable {σ : Equiv.Perm ℕ} {l l' : List α}

theorem Relabels.lt_length_iff (h : Relabels σ l l') (i : ℕ) :
    σ i < l'.length ↔ i < l.length := by
  rw [← not_iff_not, Nat.not_lt, Nat.not_lt, ← List.getElem?_eq_none_iff,
    ← List.getElem?_eq_none_iff, h i]

theorem Relabels.range_perm (h : Relabels σ l l') :
    (List.range l'.length).Perm ((List.range l.length).map σ) := by
  refine (List.perm_ext_iff_of_nodup List.nodup_range
    (List.nodup_range.map σ.injective)).mpr fun j => ?_
  rw [List.mem_range, List.mem_map]
  constructor
  · intro hj
    refine ⟨σ.symm j, ?_, σ.apply_symm_apply j⟩
    rwa [List.mem_range, ← h.lt_length_iff, σ.apply_symm_apply]
  · rintro ⟨i, hi, rfl⟩
    exact (h.lt_length_iff i).mpr (List.mem_range.mp hi)

/-- The numbered elements are the same up to the numbers. -/
theorem Relabels.zipIdx_perm (h : Relabels σ l l') :
    l'.zipIdx.Perm (l.zipIdx.map fun d => (d.1, σ d.2)) := by
  have hnodup : ∀ l : List α, (l.zipIdx.map Prod.snd).Nodup := fun l => by
    rw [List.zipIdx_map_snd]
    exact List.nodup_range' 1
  have hrelabelled : (l.zipIdx.map fun d => (d.1, σ d.2)).Nodup := by
    refine List.Nodup.of_map Prod.snd ?_
    rw [List.map_map]
    have hsnd : (Prod.snd ∘ fun d : α × ℕ => (d.1, σ d.2)) = σ ∘ Prod.snd := rfl
    rw [hsnd, ← List.map_map]
    exact (hnodup l).map σ.injective
  refine (List.perm_ext_iff_of_nodup (List.Nodup.of_map _ (hnodup l')) hrelabelled).mpr ?_
  rintro ⟨a, j⟩
  rw [List.mk_mem_zipIdx_iff_getElem?, List.mem_map]
  constructor
  · intro ha
    refine ⟨(a, σ.symm j), List.mk_mem_zipIdx_iff_getElem?.mpr ?_, by simp⟩
    rw [← h, σ.apply_symm_apply, ha]
  · rintro ⟨⟨b, i⟩, hb, heq⟩
    obtain ⟨rfl, rfl⟩ := Prod.mk.inj heq
    rw [h]
    exact List.mk_mem_zipIdx_iff_getElem?.mp hb

variable {r : α → α → Prop} [DecidableRel r]

theorem pairwise_insertionSort_of_mem {l : List α}
    (htotal : ∀ a ∈ l, ∀ b ∈ l, r a b ∨ r b a)
    (htrans : ∀ a ∈ l, ∀ b ∈ l, ∀ c ∈ l, r a b → r b c → r a c) :
    (l.insertionSort r).Pairwise r := by
  let rl : {a // a ∈ l} → {a // a ∈ l} → Prop := fun a b => r a b
  have : DecidableRel rl := fun a b => inferInstanceAs (Decidable (r a b))
  have : Std.Total rl := ⟨fun a b => htotal a a.2 b b.2⟩
  have : IsTrans {a // a ∈ l} rl := ⟨fun a b c => htrans a a.2 b b.2 c c.2⟩
  have hsorted : (l.attach.insertionSort rl).Pairwise rl := List.pairwise_insertionSort rl l.attach
  have hmap : (l.attach.insertionSort rl).map Subtype.val = l.insertionSort r := by
    rw [List.map_insertionSort rl r Subtype.val l.attach fun a _ b _ => Iff.rfl,
      List.attach_map_subtype_val]
  rw [← hmap, List.pairwise_map]
  exact hsorted

/-- Where no two elements are alike, there is one sorted list. -/
theorem insertionSort_eq_of_perm {l l' : List α} (h : l.Perm l')
    (htotal : ∀ a ∈ l, ∀ b ∈ l, r a b ∨ r b a)
    (htrans : ∀ a ∈ l, ∀ b ∈ l, ∀ c ∈ l, r a b → r b c → r a c)
    (hantisymm : ∀ a ∈ l, ∀ b ∈ l, r a b → r b a → a = b) :
    l.insertionSort r = l'.insertionSort r := by
  have hl := pairwise_insertionSort_of_mem htotal htrans
  have hl' : (l'.insertionSort r).Pairwise r := by
    refine pairwise_insertionSort_of_mem ?_ ?_
    · exact fun a ha b hb => htotal a (h.mem_iff.mpr ha) b (h.mem_iff.mpr hb)
    · exact fun a ha b hb c hc =>
        htrans a (h.mem_iff.mpr ha) b (h.mem_iff.mpr hb) c (h.mem_iff.mpr hc)
  have hperm : (l.insertionSort r).Perm (l'.insertionSort r) :=
    (List.perm_insertionSort r l).trans (h.trans (List.perm_insertionSort r l').symm)
  refine List.Perm.eq_of_pairwise (fun a b ha hb hab hba => ?_) hl hl' hperm
  exact hantisymm a ((List.mem_insertionSort r).mp ha) b
    (h.mem_iff.mpr ((List.mem_insertionSort r).mp hb)) hab hba

end SnipeIt.Support
