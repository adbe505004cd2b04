import Mathlib.Data.List.TakeWhile
import Mathlib.Tactic.Common

/-! # Searching a C string

A string is the list of its characters, a pointer into it the list of those from
there on.
-/

namespace SnipeIt.Support.CString

variable {α : Type*} [DecidableEq α]

/-- `strchr`: the string from the first `c` on. -/
def strchr (c : α) : List α → Option (List α)
  | [] => none
  | b :: s => if b = c then some (b :: s) else strchr c s

/-- `strstr`: the string from the first occurrence of `needle` on. -/
def strstr (needle : List α) : List α → Option (List α)
  | [] => if needle = [] then some [] else none
  | b :: s => if needle.isPrefixOf (b :: s) then some (b :: s) else strstr needle s

variable {c : α} {needle s rest : List α}

theorem strchr_append (h : c ∉ s) : strchr c (s ++ c :: rest) = some (c :: rest) := by
  induction s with
  | nil => simp [strchr]
  | cons b s ih =>
    obtain ⟨hb, hs⟩ := not_or.mp (List.mem_cons.not.mp h)
    rw [List.cons_append, strchr, if_neg (Ne.symm hb), ih hs]

/-- What `strchr` finds begins with the character, and there is none before it. -/
theorem strchr_eq_some (h : strchr c s = some rest) :
    ∃ front tail, s = front ++ c :: tail ∧ rest = c :: tail ∧ c ∉ front := by
  induction s with
  | nil => cases h
  | cons b s ih =>
    rw [strchr] at h
    split_ifs at h with hb
    · cases h
      exact ⟨[], s, by rw [hb, List.nil_append], by rw [hb], List.not_mem_nil⟩
    · obtain ⟨front, tail, hs, hrest, hfront⟩ := ih h
      refine ⟨b :: front, tail, by rw [hs, List.cons_append], hrest, ?_⟩
      exact fun hmem => (List.mem_cons.mp hmem).elim (Ne.symm hb) hfront

theorem strchr_suffix (h : strchr c s = some rest) : rest <:+ s := by
  obtain ⟨front, tail, rfl, rfl, -⟩ := strchr_eq_some h
  exact List.suffix_append front (c :: tail)

theorem strstr_suffix (h : strstr needle s = some rest) : rest <:+ s := by
  induction s with
  | nil =>
    rw [strstr] at h
    split_ifs at h
    cases h
    exact List.suffix_refl []
  | cons b s ih =>
    rw [strstr] at h
    split_ifs at h with hpre
    · cases h
      exact List.suffix_refl (b :: s)
    · exact (ih h).trans (List.suffix_cons b s)

theorem strstr_begins (h : strstr needle s = some rest) : needle <+: rest := by
  induction s with
  | nil =>
    rw [strstr] at h
    split_ifs at h with hnil
    cases h
    exact hnil ▸ List.prefix_refl []
  | cons b s ih =>
    rw [strstr] at h
    split_ifs at h with hpre
    · cases h
      exact List.isPrefixOf_iff_prefix.mp hpre
    · exact ih h

theorem strstr_here (needle rest : List α) :
    strstr needle (needle ++ rest) = some (needle ++ rest) := by
  cases hs : needle ++ rest with
  | nil => simp [strstr, (List.append_eq_nil_iff.mp hs).1]
  | cons b s =>
    rw [strstr, if_pos]
    rw [← hs, List.isPrefixOf_iff_prefix]
    exact List.prefix_append needle rest

theorem strstr_skip {b : α} (h : ¬ needle <+: b :: s) :
    strstr needle (b :: s) = strstr needle s := by
  rw [strstr, if_neg (by rwa [List.isPrefixOf_iff_prefix])]

theorem strstr_occurs (needle front rest : List α) :
    ∃ found, strstr needle (front ++ (needle ++ rest)) = some found ∧
      (needle ++ rest).length ≤ found.length := by
  induction front with
  | nil => exact ⟨needle ++ rest, strstr_here needle rest, le_rfl⟩
  | cons b front ih =>
    rw [List.cons_append, strstr]
    split_ifs
    · exact ⟨_, rfl, by simp; omega⟩
    · exact ih

/-- No occurrence begins where the first character of `needle` is missing. -/
theorem strstr_append (h : c ∉ s) :
    strstr (c :: needle) (s ++ rest) = strstr (c :: needle) rest := by
  induction s with
  | nil => rfl
  | cons b s ih =>
    obtain ⟨hb, hs⟩ := not_or.mp (List.mem_cons.not.mp h)
    rw [List.cons_append, strstr_skip, ih hs]
    exact fun hpre => hb (List.cons_prefix_cons.mp hpre).1

theorem strstr_eq_none (h : c ∉ s) : strstr (c :: needle) s = none := by
  rw [← List.append_nil s, strstr_append h]
  simp [strstr]

end SnipeIt.Support.CString
