import Mathlib.Data.List.TakeWhile
import SnipeIt.Support.Memory

/-! # Delimited lines in a stream

Messages are framed by a delimiter that none of them contains. A reader looks
for the first delimiter in the part of the stream it holds and stops at a
second symbol, the terminator of a C string.
-/

namespace SnipeIt.Support.LineStream
open Memory

variable {α : Type*} [DecidableEq α]

/-- `strchr` on memory: the first address from `i` on that holds `lf`, unless `nul` comes first.
The scan looks at no more than `fuel` cells. -/
def scan (lf nul : α) (m : ℕ → α) : ℕ → ℕ → Option ℕ
  | 0, _ => none
  | fuel + 1, i => if m i = lf then some i else if m i = nul then none else
      scan lf nul m fuel (i + 1)

def findEnd (lf nul : α) : List α → Option ℕ
  | [] => none
  | b :: bs => if b = lf then some 0 else if b = nul then none else
      (findEnd lf nul bs).map (· + 1)

def firstLine (lf : α) (bs : List α) : List α := bs.takeWhile (· ≠ lf)

def frame (lf : α) (ms : List (List α)) : List α := ms.flatMap (· ++ [lf])

variable {lf nul : α}

/-- A scan over a terminated range is the search in its cells. -/
theorem scan_eq_findEnd (m : ℕ → α) (a n fuel : ℕ) (hne : nul ≠ lf)
    (hnul : m (a + n) = nul) (hfuel : n < fuel) :
    scan lf nul m fuel a = (findEnd lf nul (read m a n)).map (a + ·) := by
  induction n generalizing a fuel with
  | zero =>
    obtain ⟨fuel, rfl⟩ := Nat.exists_eq_add_of_lt hfuel
    simp only [Nat.add_zero] at hnul
    simp [scan, findEnd, hnul, hne]
  | succ n ih =>
    obtain ⟨fuel, rfl⟩ : ∃ f, fuel = f + 1 := ⟨fuel - 1, by omega⟩
    rw [scan, read_succ, findEnd]
    by_cases hlf : m a = lf
    · simp [hlf]
    · by_cases hz : m a = nul
      · simp [hz, hne]
      · rw [if_neg hlf, if_neg hz, if_neg hlf, if_neg hz,
          ih (a + 1) fuel (by rw [← hnul]; congr 1; omega) (by omega), Option.map_map]
        congr 1
        funext i
        simp only [Function.comp_apply]
        omega

theorem findEnd_eq (bs : List α) (hne : nul ≠ lf) :
    findEnd lf nul bs =
      if lf ∈ bs ∧ nul ∉ firstLine lf bs then some (firstLine lf bs).length else none := by
  induction bs with
  | nil => simp [findEnd]
  | cons b bs ih =>
    by_cases hlf : b = lf
    · simp [findEnd, firstLine, hlf]
    · by_cases hz : b = nul
      · simp [findEnd, firstLine, hz, hne]
      · rw [findEnd, if_neg hlf, if_neg hz, ih]
        by_cases h : lf ∈ bs ∧ nul ∉ firstLine lf bs
        · rw [if_pos h, if_pos]
          · simp [firstLine, hlf]
          · simpa [firstLine, hlf, Ne.symm hlf, Ne.symm hz] using h
        · rw [if_neg h, if_neg]
          · rfl
          · simpa [firstLine, hlf, Ne.symm hlf, Ne.symm hz] using h

theorem firstLine_split {bs : List α} (h : lf ∈ bs) :
    ∃ rest, bs = firstLine lf bs ++ lf :: rest := by
  induction bs with
  | nil => simp at h
  | cons b bs ih =>
    by_cases hlf : b = lf
    · exact ⟨bs, by simp [firstLine, hlf]⟩
    · obtain ⟨rest, hrest⟩ := ih (by simpa [Ne.symm hlf] using h)
      refine ⟨rest, ?_⟩
      simp only [firstLine, ne_eq, hlf, not_false_eq_true, decide_true, List.takeWhile_cons_of_pos,
        List.cons_append, List.cons.injEq, true_and]
      exact hrest

theorem firstLine_append_lf {m rest : List α} (h : lf ∉ m) :
    firstLine lf (m ++ lf :: rest) = m := by
  induction m with
  | nil => simp [firstLine]
  | cons b m ih =>
    simp only [List.mem_cons, not_or] at h
    rw [firstLine, List.cons_append, List.takeWhile_cons_of_pos (by simpa using Ne.symm h.1)]
    exact congrArg (b :: ·) (ih h.2)

/-- The delimiter found at `k` ends a line of length `k`. -/
theorem findEnd_some {bs : List α} {k : ℕ} (hne : nul ≠ lf) (h : findEnd lf nul bs = some k) :
    lf ∈ bs ∧ nul ∉ firstLine lf bs ∧ k = (firstLine lf bs).length := by
  rw [findEnd_eq bs hne] at h
  split_ifs at h with hc
  exact ⟨hc.1, hc.2, (Option.some.inj h).symm⟩

theorem findEnd_lt {bs : List α} {k : ℕ} (hne : nul ≠ lf) (h : findEnd lf nul bs = some k) :
    k < bs.length := by
  obtain ⟨hlf, -, rfl⟩ := findEnd_some hne h
  obtain ⟨rest, hrest⟩ := firstLine_split hlf
  conv_rhs => rw [hrest]
  simp

omit [DecidableEq α] in
@[simp] theorem frame_nil : frame lf ([] : List (List α)) = [] := rfl

omit [DecidableEq α] in
theorem frame_cons (m : List α) (ms : List (List α)) :
    frame lf (m :: ms) = m ++ lf :: frame lf ms := by
  simp [frame]

/-- A line found in the head of a framed stream is its first message, and what follows the
delimiter continues the stream of the other messages. -/
theorem frame_split {bs unread : List α} {ms : List (List α)} {k : ℕ} (hne : nul ≠ lf)
    (hms : ∀ m ∈ ms, lf ∉ m) (h : bs ++ unread = frame lf ms)
    (hk : findEnd lf nul bs = some k) :
    ∃ m rest, ms = m :: rest ∧ nul ∉ m ∧ k = m.length ∧ bs.take k = m ∧
      bs.drop (k + 1) ++ unread = frame lf rest := by
  obtain ⟨hlf, hz, hlen⟩ := findEnd_some hne hk
  obtain ⟨tail, htail⟩ := firstLine_split hlf
  cases ms with
  | nil =>
    have hnil : bs = [] := List.append_eq_nil_iff.mp h |>.1
    simp [hnil] at hlf
  | cons m rest =>
    have hstream : firstLine lf bs ++ lf :: (tail ++ unread) = m ++ lf :: frame lf rest := by
      rw [← frame_cons, ← h]
      conv_rhs => rw [htail]
      simp
    have hm : firstLine lf bs = m := by
      have hfree : lf ∉ firstLine lf bs := by
        intro hmem
        simpa using List.mem_takeWhile_imp hmem
      have hfirst : firstLine lf (firstLine lf bs ++ lf :: (tail ++ unread)) = firstLine lf bs :=
        firstLine_append_lf hfree
      rw [← hfirst, hstream, firstLine_append_lf (hms m (by simp))]
    rw [hm] at hstream htail hz hlen
    refine ⟨m, rest, rfl, hz, hlen, ?_, ?_⟩
    · rw [htail, hlen, List.take_left' rfl]
    · have hdrop : bs.drop (k + 1) = tail := by
        rw [htail, hlen, ← List.drop_drop, List.drop_left' rfl]
        rfl
      rw [hdrop]
      simpa using hstream

/-- A complete framed stream always shows its first message. -/
theorem findEnd_frame {m : List α} {ms : List (List α)} (hne : nul ≠ lf) (hlf : lf ∉ m)
    (hz : nul ∉ m) : findEnd lf nul (frame lf (m :: ms)) = some m.length := by
  rw [frame_cons, findEnd_eq _ hne, firstLine_append_lf hlf, if_pos ⟨by simp, hz⟩]

omit [DecidableEq α] in
theorem lf_mem_frame {ms : List (List α)} : lf ∈ frame lf ms ↔ ms ≠ [] := by
  cases ms <;> simp [frame_cons]

/-- The first line of the head of a framed stream is its first message. -/
theorem firstLine_of_frame {bs unread : List α} {ms : List (List α)} (hms : ∀ m ∈ ms, lf ∉ m)
    (h : bs ++ unread = frame lf ms) (hlf : lf ∈ bs) : firstLine lf bs ∈ ms := by
  obtain ⟨rest, hrest⟩ := firstLine_split hlf
  have hfree : lf ∉ firstLine lf bs := fun hmem => by
    simpa using List.mem_takeWhile_imp hmem
  cases ms with
  | nil =>
    rw [frame_nil, List.append_eq_nil_iff] at h
    rw [h.1] at hlf
    cases hlf
  | cons m ms =>
    rw [frame_cons, hrest, List.append_assoc, List.cons_append] at h
    have hfirst := congrArg (firstLine lf) h
    rw [firstLine_append_lf hfree, firstLine_append_lf (hms m List.mem_cons_self)] at hfirst
    rw [hfirst]
    exact List.mem_cons_self

omit [DecidableEq α] in
/-- Without a delimiter the head of a framed stream is no longer than its messages. -/
theorem length_le_of_frame {bs unread : List α} {ms : List (List α)} {n : ℕ}
    (hms : ∀ m ∈ ms, m.length ≤ n) (h : bs ++ unread = frame lf ms) (hlf : lf ∉ bs) :
    bs.length ≤ n := by
  cases ms with
  | nil =>
    rw [frame_nil, List.append_eq_nil_iff] at h
    rw [h.1]
    exact Nat.zero_le n
  | cons m ms =>
    refine le_trans ?_ (hms m List.mem_cons_self)
    rw [frame_cons] at h
    rcases List.append_eq_append_iff.mp h with ⟨c, hm, -⟩ | ⟨c, hbs, hc⟩
    · rw [hm, List.length_append]
      exact Nat.le_add_right _ _
    · cases c with
      | nil => rw [hbs, List.append_nil]
      | cons b c =>
        obtain rfl : lf = b := (List.cons.inj hc).1
        exact absurd (by rw [hbs]; simp) hlf

end SnipeIt.Support.LineStream
