import SnipeIt.Ddl.FrameCodecs

/-! # Corrupted frames

Of two accepted frames that differ in as little as a line disturbance leaves
behind, the checksums show that they are the same one.
-/

namespace SnipeIt.Ddl
open Support

/-- Two arrays agree but for the positions `i` and `i + 1`. -/
def AgreeButPair {α : Type*} {n : ℕ} (i : ℕ) (f g : Fin n → α) : Prop :=
  ∀ (j : ℕ) (hj : j < n), j ≠ i → j ≠ i + 1 → g ⟨j, hj⟩ = f ⟨j, hj⟩

/-- Two arrays agree but for the position `i`. -/
def AgreeBut {α : Type*} {n : ℕ} (i : ℕ) (f g : Fin n → α) : Prop :=
  ∀ (j : ℕ) (hj : j < n), j ≠ i → g ⟨j, hj⟩ = f ⟨j, hj⟩

namespace UbxNavPvtFrame

variable {f g : UbxNavPvtFrame}

theorem getElem?_checked (f : UbxNavPvtFrame) (j : ℕ) :
    f.checked[j]? = if h : j < 96 then some (f ⟨2 + j, by omega⟩) else none := by
  rw [checked, List.getElem?_ofFn]

@[simp] theorem length_checked (f : UbxNavPvtFrame) : f.checked.length = 96 := by
  rw [checked, List.length_ofFn]

theorem checked_agree {j : ℕ} (h : ∀ hj : 2 + j < 100, g ⟨2 + j, hj⟩ = f ⟨2 + j, hj⟩) :
    g.checked[j]? = f.checked[j]? := by
  rw [getElem?_checked, getElem?_checked]
  by_cases hj : j < 96
  · rw [dif_pos hj, dif_pos hj, h (by omega)]
  · rw [dif_neg hj, dif_neg hj]

/-- The marks, the checked bytes and the sums are the whole frame. -/
theorem ext_of_checked (h0 : g 0 = f 0) (h1 : g 1 = f 1) (hchecked : g.checked = f.checked)
    (ha : g 98 = f 98) (hb : g 99 = f 99) : g = f := by
  have hinside : (fun i : Fin 96 => g ⟨2 + i, by omega⟩) = fun i : Fin 96 => f ⟨2 + i, by omega⟩ :=
    List.ofFn_injective hchecked
  funext j
  obtain ⟨j, hj⟩ := j
  by_cases hinner : 2 ≤ j ∧ j < 98
  · have hbyte := congrFun hinside ⟨j - 2, by omega⟩
    have hplace : 2 + (j - 2) = j := by omega
    simp only [hplace] at hbyte
    exact hbyte
  · obtain rfl | rfl | rfl | rfl : j = 0 ∨ j = 1 ∨ j = 98 ∨ j = 99 := by omega
    · exact h0
    · exact h1
    · exact ha
    · exact hb

/-- Two accepted frames that agree but for two neighbouring bytes are the same. -/
theorem eq_of_valid {i : ℕ} {old old' : UInt32} (hf : f.isFrameValid old = true)
    (hg : g.isFrameValid old' = true) (h : AgreeButPair i f g) : g = f := by
  obtain ⟨hf0, hf1, -, -, -, -, hfa, hfb⟩ := (isFrameValid_iff f old).mp hf
  obtain ⟨hg0, hg1, -, -, -, -, hga, hgb⟩ := (isFrameValid_iff g old').mp hg
  have h0 : g 0 = f 0 := by rw [hg0, hf0]
  have h1 : g 1 = f 1 := by rw [hg1, hf1]
  have hlength : g.checked.length = f.checked.length := by rw [length_checked, length_checked]
  rcases Nat.lt_trichotomy i 97 with hinside | hboundary | hsums
  · -- the sums agree, and the two bytes are neighbours among the checked ones
    have ha : g 98 = f 98 := h 98 (by omega) (by omega) (by omega)
    have hb : g 99 = f 99 := h 99 (by omega) (by omega) (by omega)
    have hchecked : g.checked = f.checked := by
      apply Checksum.eq_of_fletcher_eq (i := i - 2) hlength
      · intro j hj hj'
        exact checked_agree fun hlt => h (2 + j) hlt (by omega) (by omega)
      · rw [← hga, ← hfa, ha]
      · rw [← hgb, ← hfb, hb]
    exact ext_of_checked h0 h1 hchecked ha hb
  · -- the last checked byte and the sum, which leaves the sum of the running sums
    have hb : g 99 = f 99 := h 99 (by omega) (by omega) (by omega)
    have hchecked : g.checked = f.checked := by
      apply Checksum.eq_of_runningSum_eq hlength
      · intro j hj
        rw [length_checked] at hj
        exact checked_agree fun hlt => h (2 + j) hlt (by omega) (by omega)
      · rw [← hgb, ← hfb, hb]
    exact ext_of_checked h0 h1 hchecked (by rw [hga, hfa, hchecked]) hb
  · have hchecked : g.checked = f.checked := by
      apply List.ext_getElem?
      intro j
      by_cases hj : j < 96
      · exact checked_agree fun hlt => h (2 + j) hlt (by omega) (by omega)
      · rw [getElem?_checked, getElem?_checked, dif_neg hj, dif_neg hj]
    exact ext_of_checked h0 h1 hchecked (by rw [hga, hfa, hchecked]) (by rw [hgb, hfb, hchecked])

end UbxNavPvtFrame

namespace TOFSenseFrame

variable {f g : TOFSenseFrame}

/-- Two accepted frames that agree but for one byte are the same. -/
theorem eq_of_valid {i : ℕ} {old old' : UInt32} (hf : f.isFrameValid old = true)
    (hg : g.isFrameValid old' = true) (h : AgreeBut i f g) : g = f := by
  obtain ⟨-, -, -, -, hfsum⟩ := (isFrameValid_iff f old).mp hf
  obtain ⟨-, -, -, -, hgsum⟩ := (isFrameValid_iff g old').mp hg
  rw [checksum_eq] at hfsum hgsum
  have hbody : (List.ofFn fun i : Fin 15 => g i.castSucc) = List.ofFn fun i => f i.castSucc := by
    by_cases hlast : i = 15
    · congr 1
      funext j
      obtain ⟨j, hj⟩ := j
      exact h j (by omega) (by omega)
    · have hchecksum : g 15 = f 15 := h 15 (by omega) (by omega)
      apply Checksum.eq_of_sum_eq (i := i) (by simp)
      · intro j hj
        rw [List.getElem?_ofFn, List.getElem?_ofFn]
        by_cases hinside : j < 15
        · rw [dif_pos hinside, dif_pos hinside]
          exact congrArg some (h j (by omega) hj)
        · rw [dif_neg hinside, dif_neg hinside]
      · rw [← hfsum, ← hgsum, hchecksum]
  funext j
  obtain ⟨j, hj⟩ := j
  by_cases hlast : j = 15
  · subst hlast
    have hchecksum : g 15 = f 15 := by rw [hgsum, hbody, hfsum]
    exact hchecksum
  · exact congrFun (List.ofFn_injective hbody) ⟨j, by omega⟩

end TOFSenseFrame

/-- The corruption that the checks detect: an accepted UBX frame with two neighbouring bytes
changed, anywhere in the frame, or an accepted distance frame with one byte changed, is rejected. -/
theorem corruption_detected (order : ByteOrder) :
    (∀ (f g : UbxNavPvtFrame) (oldITow : UInt32) (i : ℕ),
      UbxNavPvt.isFrameValid order f oldITow = true → g ≠ f → AgreeButPair i f g →
        UbxNavPvt.isFrameValid order g oldITow = false) ∧
      ∀ (f g : TOFSenseFrame) (oldSystemTime : UInt32) (i : ℕ),
        TOFSense.isFrameValid order f oldSystemTime = true → g ≠ f → AgreeBut i f g →
          TOFSense.isFrameValid order g oldSystemTime = false := by
  constructor
  · intro f g oldITow i hvalid hne hagree
    rw [UbxNavPvt.isFrameValid_eq] at hvalid ⊢
    by_contra hother
    exact hne (UbxNavPvtFrame.eq_of_valid hvalid (eq_true_of_ne_false hother) hagree)
  · intro f g oldSystemTime i hvalid hne hagree
    rw [TOFSense.isFrameValid_eq] at hvalid ⊢
    by_contra hother
    exact hne (TOFSenseFrame.eq_of_valid hvalid (eq_true_of_ne_false hother) hagree)

/-- A fix of the GPS with time of week 1 and nothing else in its payload. -/
def emptyFix : UbxNavPvtFrame := fun i =>
  (([0xB5, 0x62, 0x01, 0x07, 0x5C, 0x00, 0x01] ++ List.replicate 91 0x00 ++ [0x65, 0x1D] :
    List UInt8)).getD i 0

/-- The last byte of the payload and the checksum next to it are hit, and a byte of a distance
frame. -/
theorem corruption_detected_boundary :
    UbxNavPvt.isFrameValid .big (Function.update (Function.update emptyFix 97 0x9B) 98 0x00) 0 =
        false ∧
      TOFSense.isFrameValid .big (Function.update (TOFSenseReading.encode
        ⟨0xFF, 36766, 2221, 0, 3, 6⟩) 8 0xAE) 0 = false := by
  constructor
  · apply (corruption_detected .big).1 emptyFix _ 0 97
    · decide +kernel
    · intro h
      have hbyte := congrFun h 97
      revert hbyte
      decide +kernel
    · intro j hj hj97 hj98
      have h97 : (⟨j, hj⟩ : Fin 100) ≠ 97 := fun h => hj97 (congrArg Fin.val h)
      have h98 : (⟨j, hj⟩ : Fin 100) ≠ 98 := fun h => hj98 (congrArg Fin.val h)
      rw [Function.update_of_ne h98, Function.update_of_ne h97]
  · apply (corruption_detected .big).2 (TOFSenseReading.encode ⟨0xFF, 36766, 2221, 0, 3, 6⟩) _ 0 8
    · decide +kernel
    · intro h
      have hbyte := congrFun h 8
      revert hbyte
      decide +kernel
    · intro j hj hj8
      have h8 : (⟨j, hj⟩ : Fin 16) ≠ 8 := fun h => hj8 (congrArg Fin.val h)
      rw [Function.update_of_ne h8]

end SnipeIt.Ddl
