import Mathlib.Data.List.Range
import Mathlib.Tactic.Common

/-! # Ring buffers

An array of a fixed size with the position of the oldest element, the position
of the next free slot and the number of elements. The positions are stored
separately, so a ring carries the equation between them.
-/

namespace SnipeIt.Support

structure Ring (β : Type*) (size : ℕ) where
  slots : Fin size → β
  head : ℕ
  tail : ℕ
  count : ℕ
  tail_lt : tail < size
  count_le : count ≤ size
  head_eq : head = (tail + count) % size

namespace Ring

variable {β : Type*} {size : ℕ}

theorem size_pos (r : Ring β size) : 0 < size := Nat.zero_lt_of_lt r.tail_lt

def slot (r : Ring β size) (i : ℕ) : β := r.slots ⟨i % size, Nat.mod_lt _ r.size_pos⟩

def content (r : Ring β size) : List β := (List.range r.count).map fun i => r.slot (r.tail + i)

def init (slots : Fin size → β) (h : 0 < size) : Ring β size where
  slots := slots
  head := 0
  tail := 0
  count := 0
  tail_lt := h
  count_le := Nat.zero_le _
  head_eq := (Nat.zero_mod _).symm

def clear (r : Ring β size) : Ring β size := init r.slots r.size_pos

def front (r : Ring β size) : β := r.slots ⟨r.tail, r.tail_lt⟩

def drop (r : Ring β size) (h : 0 < r.count) : Ring β size where
  slots := r.slots
  head := r.head
  tail := (r.tail + 1) % size
  count := r.count - 1
  tail_lt := Nat.mod_lt _ r.size_pos
  count_le := by
    have := r.count_le
    omega
  head_eq := by
    rw [r.head_eq, Nat.mod_add_mod]
    congr 1
    omega

def put (r : Ring β size) (b : β) (h : r.count < size) : Ring β size where
  slots := fun i => if i.val = r.head then b else r.slots i
  head := (r.head + 1) % size
  tail := r.tail
  count := r.count + 1
  tail_lt := r.tail_lt
  count_le := h
  head_eq := by rw [r.head_eq, Nat.mod_add_mod, Nat.add_assoc]

@[simp] theorem content_length (r : Ring β size) : r.content.length = r.count := by
  simp [content]

@[simp] theorem content_init (slots : Fin size → β) (h : 0 < size) :
    (init slots h).content = [] := rfl

@[simp] theorem content_clear (r : Ring β size) : r.clear.content = [] := rfl

theorem content_eq_front_cons (r : Ring β size) (h : 0 < r.count) :
    r.content = r.front :: (r.drop h).content := by
  obtain ⟨n, hn⟩ : ∃ n, r.count = n + 1 := ⟨r.count - 1, by omega⟩
  have hcount : (r.drop h).count = n := by simp [drop, hn]
  have hfront : r.slot (r.tail + 0) = r.front := by
    simp only [slot, front, Nat.add_zero, Nat.mod_eq_of_lt r.tail_lt]
  rw [content, content, hn, hcount, List.range_succ_eq_map, List.map_cons, hfront, List.map_map]
  congr 1
  apply List.map_congr_left
  intro i _
  simp only [Function.comp_apply, slot, drop, Nat.mod_add_mod]
  congr 2
  rw [show r.tail + i.succ = r.tail + 1 + i by omega]

theorem content_drop (r : Ring β size) (h : 0 < r.count) :
    (r.drop h).content = r.content.tail := by
  rw [r.content_eq_front_cons h, List.tail_cons]

theorem slot_ne_head (r : Ring β size) (h : r.count < size) {i : ℕ} (hi : i < r.count) :
    (r.tail + i) % size ≠ r.head := by
  rw [r.head_eq]
  intro heq
  have hdiff := Nat.sub_mod_eq_zero_of_mod_eq heq.symm
  rw [show r.tail + r.count - (r.tail + i) = r.count - i by omega,
    Nat.mod_eq_of_lt (by omega)] at hdiff
  omega

theorem content_put (r : Ring β size) (b : β) (h : r.count < size) :
    (r.put b h).content = r.content ++ [b] := by
  have hnew : (r.put b h).slot (r.tail + r.count) = b := by
    simp only [slot, put, ← r.head_eq, if_true]
  have hold : ∀ i ∈ List.range r.count, (r.put b h).slot (r.tail + i) = r.slot (r.tail + i) := by
    intro i hi
    simp only [slot, put, if_neg (r.slot_ne_head h (List.mem_range.mp hi))]
  show (List.range (r.count + 1)).map (fun i => (r.put b h).slot (r.tail + i)) = _
  rw [List.range_succ, List.map_append, List.map_congr_left hold, List.map_singleton, hnew]
  rfl

def InUse (r : Ring β size) (j : ℕ) : Prop := ∃ i < r.count, (r.tail + i) % size = j

instance (r : Ring β size) (j : ℕ) : Decidable (r.InUse j) :=
  inferInstanceAs (Decidable (∃ i < r.count, (r.tail + i) % size = j))

/-- In a full ring the next free position is that of the oldest element. -/
theorem head_eq_tail (r : Ring β size) (h : r.count = size) : r.head = r.tail := by
  rw [r.head_eq, h, Nat.add_mod_right, Nat.mod_eq_of_lt r.tail_lt]

theorem head_inUse_iff (r : Ring β size) : r.InUse r.head ↔ r.count = size := by
  constructor
  · rintro ⟨i, hi, heq⟩
    by_contra hne
    exact r.slot_ne_head (lt_of_le_of_ne r.count_le hne) hi heq
  · intro hfull
    refine ⟨0, by rw [hfull]; exact r.size_pos, ?_⟩
    rw [Nat.add_zero, Nat.mod_eq_of_lt r.tail_lt, r.head_eq_tail hfull]

/-- Elements that are numbered as they come: of `n` elements so far, the ring holds the last ones,
in order. -/
structure Numbered (r : Ring β size) (number : ℕ → ℕ) (n : ℕ) : Prop where
  count_le : r.count ≤ n
  number_eq : ∀ i < r.count, number ((r.tail + i) % size) = n - r.count + i

theorem numbered_of_count {r : Ring β size} (h : r.count = 0) (number : ℕ → ℕ) (n : ℕ) :
    r.Numbered number n :=
  ⟨by omega, fun i hi => by omega⟩

theorem Numbered.drop {r : Ring β size} {number : ℕ → ℕ} {n : ℕ} (h : r.Numbered number n)
    (hpos : 0 < r.count) : (r.drop hpos).Numbered number n := by
  have hle := h.count_le
  refine ⟨(Nat.sub_le _ _).trans hle, fun i hi => ?_⟩
  simp only [Ring.drop] at hi ⊢
  have hplace : r.tail + 1 + i = r.tail + (i + 1) := by omega
  rw [Nat.mod_add_mod, hplace, h.number_eq (i + 1) (by omega)]
  omega

theorem Numbered.put {r : Ring β size} {number : ℕ → ℕ} {n : ℕ} (h : r.Numbered number n) (b : β)
    (hroom : r.count < size) :
    (r.put b hroom).Numbered (Function.update number r.head n) (n + 1) := by
  have hle := h.count_le
  refine ⟨Nat.succ_le_succ hle, fun i hi => ?_⟩
  simp only [Ring.put] at hi ⊢
  rcases Nat.lt_succ_iff_lt_or_eq.mp hi with hold | rfl
  · rw [Function.update_of_ne (r.slot_ne_head hroom hold), h.number_eq i hold]
    omega
  · rw [← r.head_eq, Function.update_self]
    omega

theorem Numbered.oldest {r : Ring β size} {number : ℕ → ℕ} {n : ℕ} (h : r.Numbered number n)
    (hpos : 0 < r.count) : number r.tail = n - r.count := by
  have hfirst := h.number_eq 0 hpos
  rwa [Nat.add_zero, Nat.mod_eq_of_lt r.tail_lt, Nat.add_zero] at hfirst

end Ring

end SnipeIt.Support
