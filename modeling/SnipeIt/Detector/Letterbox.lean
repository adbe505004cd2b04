import Mathlib.Data.List.Sort
import Mathlib.Data.Rat.Floor
import Mathlib.Tactic.FieldSimp
import SnipeIt.Support.HalfEven
import SnipeIt.Support.Quantize

/-! # From the model's boxes to pixels (`person_streamer.py`)

A frame is scaled to fit on the square input of the model and padded. The boxes of
the model are mapped back, rounded and clamped, and scaled once more for the stream
that the app shows. Numbers are those of any field with a floor.
-/

namespace SnipeIt.Detector
open Support

variable {K : Type*} [Field K] [LinearOrder K] [IsStrictOrderedRing K] [FloorRing K]

structure Bbox where
  x : ℤ
  y : ℤ
  width : ℤ
  height : ℤ
deriving DecidableEq

structure Detection (K : Type*) where
  label : String
  score : K
  bboxXywh : Bbox

/-- The fields of `EdgeTPUPersonDetector` that `detect` reads. -/
structure EdgeTPUPersonDetector (K : Type*) where
  inW : ℕ
  inH : ℕ
  threshold : K

structure ModelBox (K : Type*) where
  ymin : K
  xmin : K
  ymax : K
  xmax : K

/-- What the interpreter returns, without the batch dimension. Tensors that could not be found are
`none`. -/
structure ModelOutput (K : Type*) where
  boxes : Option (List (ModelBox K))
  scores : Option (List K)
  count : Option ℤ

structure Letterbox (K : Type*) where
  scale : K
  newW : ℤ
  newH : ℤ
  padX : ℤ
  padY : ℤ

namespace EdgeTPUPersonDetector

def letterbox (d : EdgeTPUPersonDetector K) (origW origH : ℕ) : Letterbox K :=
  let scale := min ((d.inW : K) / origW) ((d.inH : K) / origH)
  let newW := halfEven (origW * scale)
  let newH := halfEven (origH * scale)
  { scale := scale
    newW := newW
    newH := newH
    padX := (d.inW - newW) / 2
    padY := (d.inH - newH) / 2 }

end EdgeTPUPersonDetector

/-- A coordinate on the canvas, in units of its size, back on the frame. -/
def unletterbox (inSize : ℕ) (pad : ℤ) (scale v : K) : K := (v * inSize - pad) / scale

def toPixel (origSize : ℕ) (v : K) : ℤ := max 0 (min (halfEven v) (origSize - 1))

def ModelBox.bbox (box : ModelBox K) (d : EdgeTPUPersonDetector K) (origW origH : ℕ) : Bbox :=
  let l := d.letterbox origW origH
  let x1 := toPixel origW (unletterbox d.inW l.padX l.scale box.xmin)
  let y1 := toPixel origH (unletterbox d.inH l.padY l.scale box.ymin)
  let x2 := toPixel origW (unletterbox d.inW l.padX l.scale box.xmax)
  let y2 := toPixel origH (unletterbox d.inH l.padY l.scale box.ymax)
  ⟨x1, y1, max 1 (x2 - x1), max 1 (y2 - y1)⟩

/-- `detect`, with what the interpreter returns; `none` for an exception. -/
def detect (d : EdgeTPUPersonDetector K) (origW origH : ℕ) (output : ModelOutput K) :
    Option (List (Detection K)) :=
  if origW = 0 ∨ origH = 0 then some []
  -- an empty image is no size for `cv2.resize`
  else if (d.letterbox origW origH).newW ≤ 0 ∨ (d.letterbox origW origH).newH ≤ 0 then none
  else match output.boxes, output.scores with
    | some boxes, some scores =>
      let count := output.count.getD scores.length
      let n := min count (min (scores.length : ℤ) boxes.length)
      let dets := ((scores.zip boxes).take n.toNat).filterMap fun row =>
        if row.1 < d.threshold then none
        else some ⟨"person", row.1, row.2.bbox d origW origH⟩
      some (dets.insertionSort fun a b => b.score ≤ a.score)
    | _, _ => none

structure DetectionPayload (K : Type*) where
  detectionId : String
  objClass : String
  confidence : K
  bbox : Bbox

def detectionsPayload (dets : List (Detection K)) : List (DetectionPayload K) :=
  let sx : K := 1920 / 1280
  let sy : K := 1080 / 720
  dets.zipIdx.map fun d =>
    { detectionId := (d.2 + 1).repr
      objClass := "HUMAN"
      confidence := d.1.score
      bbox :=
        { x := halfEven (d.1.bboxXywh.x * sx)
          y := halfEven (d.1.bboxXywh.y * sy)
          width := halfEven (d.1.bboxXywh.width * sx)
          height := halfEven (d.1.bboxXywh.height * sy) } }

def Bbox.Inside (b : Bbox) (w h : ℕ) : Prop :=
  0 ≤ b.x ∧ 0 ≤ b.y ∧ 1 ≤ b.width ∧ 1 ≤ b.height ∧ b.x + b.width ≤ w ∧ b.y + b.height ≤ h

instance (b : Bbox) (w h : ℕ) : Decidable (b.Inside w h) :=
  inferInstanceAs (Decidable (_ ∧ _ ∧ _ ∧ _ ∧ _ ∧ _))

/-! ## Boxes inside the frame -/

omit [IsStrictOrderedRing K] in
theorem toPixel_mem {n : ℕ} (hn : 0 < n) (v : K) : 0 ≤ toPixel n v ∧ toPixel n v ≤ n - 1 := by
  rw [toPixel]
  omega

omit [IsStrictOrderedRing K] in
/-- A box between two pixels of the frame, one pixel wide at least. -/
theorem side_inside {n : ℕ} (hn : 0 < n) (v w : K) :
    0 ≤ toPixel n v ∧ 1 ≤ max 1 (toPixel n w - toPixel n v) ∧
      toPixel n v + max 1 (toPixel n w - toPixel n v) ≤ n := by
  have hv := toPixel_mem hn v
  have hw := toPixel_mem hn w
  omega

omit [IsStrictOrderedRing K] in
theorem bbox_inside (d : EdgeTPUPersonDetector K) {origW origH : ℕ} (hw : 0 < origW)
    (hh : 0 < origH) (box : ModelBox K) : (box.bbox d origW origH).Inside origW origH := by
  obtain ⟨hx, hwidth, hright⟩ := side_inside hw
    (unletterbox d.inW (d.letterbox origW origH).padX (d.letterbox origW origH).scale box.xmin)
    (unletterbox d.inW (d.letterbox origW origH).padX (d.letterbox origW origH).scale box.xmax)
  obtain ⟨hy, hheight, hbottom⟩ := side_inside hh
    (unletterbox d.inH (d.letterbox origW origH).padY (d.letterbox origW origH).scale box.ymin)
    (unletterbox d.inH (d.letterbox origW origH).padY (d.letterbox origW origH).scale box.ymax)
  exact ⟨hx, hy, hwidth, hheight, hright, hbottom⟩

omit [IsStrictOrderedRing K] in
theorem detect_inside {d : EdgeTPUPersonDetector K} {origW origH : ℕ} {output : ModelOutput K}
    {dets : List (Detection K)} (h : detect d origW origH output = some dets) :
    ∀ det ∈ dets, det.bboxXywh.Inside origW origH := by
  unfold detect at h
  split_ifs at h with hempty hsize
  · cases h
    exact fun det hdet => by cases hdet
  · intro det hdet
    obtain ⟨hw, hh⟩ := not_or.mp hempty
    cases hboxes : output.boxes with
    | none => simp [hboxes] at h
    | some boxes =>
      cases hscores : output.scores with
      | none => simp [hboxes, hscores] at h
      | some scores =>
        simp only [hboxes, hscores, Option.some.injEq] at h
        rw [← h, List.mem_insertionSort, List.mem_filterMap] at hdet
        obtain ⟨row, -, hrow⟩ := hdet
        split_ifs at hrow with hscore
        cases hrow
        exact bbox_inside d (Nat.pos_of_ne_zero hw) (Nat.pos_of_ne_zero hh) row.2

/-- One and a half times an integer, rounded: halves go up for every other odd number. -/
theorem halfEven_scaled (n : ℤ) : halfEven (n * (3 / 2) : K) =
    n + (n + if n % 4 = 1 then 1 else 0) / 2 := by
  rcases Int.even_or_odd' n with ⟨k, rfl | rfl⟩
  · have hint : (((2 * k : ℤ) : K) * (3 / 2)) = ((3 * k : ℤ) : K) := by
      push_cast
      ring
    rw [hint, halfEven_intCast]
    omega
  · have hhalf : (((2 * k + 1 : ℤ) : K) * (3 / 2)) = ((3 * k + 1 : ℤ) : K) + 1 / 2 := by
      push_cast
      ring
    rw [hhalf, halfEven_add_half]
    simp only [Int.even_iff]
    omega

/-- Two parts of a length that the factor takes to an integer stay inside it. -/
theorem scaled_side_inside (size : ℤ) {x w : ℤ} (hx : 0 ≤ x) (hw : 1 ≤ w) (hsize : size % 4 = 0)
    (h : x + w ≤ size) : 0 ≤ halfEven (x * (3 / 2) : K) ∧ 1 ≤ halfEven (w * (3 / 2) : K) ∧
      2 * (halfEven (x * (3 / 2) : K) + halfEven (w * (3 / 2) : K)) ≤ 3 * size := by
  rw [halfEven_scaled, halfEven_scaled]
  omega

theorem payload_inside {dets : List (Detection K)}
    (h : ∀ det ∈ dets, det.bboxXywh.Inside 1280 720) :
    ∀ p ∈ detectionsPayload dets, p.bbox.Inside 1920 1080 := by
  intro p hp
  obtain ⟨d, hd, rfl⟩ := List.mem_map.mp hp
  have hmem : d.1 ∈ dets := by
    have hmap := List.mem_map_of_mem (f := Prod.fst) hd
    rwa [List.zipIdx_map_fst] at hmap
  obtain ⟨hx, hy, hwidth, hheight, hright, hbottom⟩ := h d.1 hmem
  have hsx : (1920 / 1280 : K) = 3 / 2 := by norm_num
  have hsy : (1080 / 720 : K) = 3 / 2 := by norm_num
  obtain ⟨hx', hwidth', hright'⟩ :=
    scaled_side_inside (K := K) 1280 hx hwidth (by decide) hright
  obtain ⟨hy', hheight', hbottom'⟩ :=
    scaled_side_inside (K := K) 720 hy hheight (by decide) hbottom
  dsimp only [Bbox.Inside]
  rw [hsx, hsy]
  exact ⟨hx', hy', hwidth', hheight', by push_cast; omega, by push_cast; omega⟩

/-- Every box lies in the frame, and the boxes sent lie in the stream of the camera. -/
theorem boxes_inside (d : EdgeTPUPersonDetector K) (output : ModelOutput K)
    (dets : List (Detection K)) :
    (∀ origW origH, detect d origW origH output = some dets →
      ∀ det ∈ dets, det.bboxXywh.Inside origW origH) ∧
    (detect d 1280 720 output = some dets →
      ∀ p ∈ detectionsPayload dets, p.bbox.Inside 1920 1080) :=
  ⟨fun _ _ h => detect_inside h, fun h => payload_inside (detect_inside h)⟩

/-- A model of 640 by 640, and an inverted box on the corner of the frame. -/
def mobileNet : EdgeTPUPersonDetector ℚ := ⟨640, 640, 1 / 2⟩

def corner : ModelOutput ℚ := ⟨some [⟨2, 2, 1, 1⟩], some [3 / 4], some 1⟩

theorem boxes_inside_corner :
    ∃ dets, detect mobileNet 1280 720 corner = some dets ∧
      (dets.map fun det => det.bboxXywh) = [⟨1279, 719, 1, 1⟩] ∧
      (∀ det ∈ dets, det.bboxXywh.Inside 1280 720) ∧
      ∀ p ∈ detectionsPayload dets, p.bbox.Inside 1920 1080 := by
  have hbbox : (detect mobileNet 1280 720 corner).map (·.map fun det => det.bboxXywh) =
      some [⟨1279, 719, 1, 1⟩] := by decide +kernel
  obtain ⟨dets, hdets, hboxes⟩ := Option.map_eq_some_iff.mp hbbox
  exact ⟨dets, hdets, hboxes, (boxes_inside mobileNet corner dets).1 1280 720 hdets,
    (boxes_inside mobileNet corner dets).2 hdets⟩

/-! ## There and back -/

/-- A coordinate of the frame on the canvas, in units of its size. -/
def toCanvas (inSize origSize : ℕ) (newSize pad : ℤ) (x : K) : K :=
  (x * newSize / origSize + pad) / inSize

/-- The image is no larger than the canvas, and the padding leaves room for it. -/
theorem fits_canvas {inSize origSize : ℕ} {scale : K}
    (hscale : (origSize : K) * scale ≤ inSize) :
    0 ≤ ((inSize : ℤ) - halfEven (origSize * scale)) / 2 ∧
      ((inSize : ℤ) - halfEven (origSize * scale)) / 2 + halfEven (origSize * scale) ≤ inSize := by
  have hle : halfEven (origSize * scale) ≤ (inSize : ℤ) :=
    halfEven_le (by rwa [Int.cast_natCast])
  omega

/-- What the rounding of the image's size does to a coordinate. -/
theorem abs_unletterbox_sub_le {inSize origSize : ℕ} (pad : ℤ) {scale x : K} (hin : 0 < inSize)
    (horig : 0 < origSize) (hscale : 0 < scale) (hx : 0 ≤ x) (hlt : x ≤ origSize) :
    |unletterbox inSize pad scale
      (toCanvas inSize origSize (halfEven (origSize * scale)) pad x) - x| ≤ 1 / (2 * scale) := by
  have hin' : (inSize : K) ≠ 0 := Nat.cast_ne_zero.mpr hin.ne'
  have horig' : (0 : K) < origSize := Nat.cast_pos.mpr horig
  have hround := abs_halfEven_sub_le ((origSize : K) * scale)
  generalize halfEven ((origSize : K) * scale) = size at hround ⊢
  have hdiff : unletterbox inSize pad scale (toCanvas inSize origSize size pad x) - x =
      x / (origSize * scale) * (size - origSize * scale) := by
    rw [unletterbox, toCanvas]
    field_simp
    ring
  have hshare : x / (origSize * scale) ≤ 1 / scale := by
    rw [div_le_div_iff₀ (mul_pos horig' hscale) hscale, one_mul]
    exact mul_le_mul_of_nonneg_right hlt hscale.le
  have hnonneg : 0 ≤ x / (origSize * scale) := div_nonneg hx (mul_pos horig' hscale).le
  calc |unletterbox inSize pad scale (toCanvas inSize origSize size pad x) - x|
      = x / (origSize * scale) * |(size : K) - origSize * scale| := by
        rw [hdiff, abs_mul, abs_of_nonneg hnonneg]
    _ ≤ 1 / scale * (1 / 2) :=
        mul_le_mul hshare hround (abs_nonneg _) (one_div_nonneg.mpr hscale.le)
    _ = 1 / (2 * scale) := by rw [one_div_mul_one_div_rev]

/-- Rounding and clamping add half a pixel at most. -/
theorem abs_toPixel_sub_le {n : ℕ} {x : K} (v : K) (hx : 0 ≤ x) (hlt : x ≤ n - 1) :
    |(toPixel n v : K) - x| ≤ |v - x| + 1 / 2 := by
  have hpixel : (toPixel n v : K) = clamp 0 ((n : K) - 1) (halfEven v) := by
    rw [← max_min_eq_clamp (hx.trans hlt), toPixel]
    push_cast
    rfl
  calc |(toPixel n v : K) - x|
      ≤ |(halfEven v : K) - x| := by rw [hpixel]; exact abs_clamp_sub_le hx hlt
    _ ≤ |(halfEven v : K) - v| + |v - x| := abs_sub_le _ _ _
    _ ≤ 1 / 2 + |v - x| := add_le_add_left (abs_halfEven_sub_le v) _
    _ = |v - x| + 1 / 2 := add_comm _ _

/-- One axis of the letterbox: the image fits, and a coordinate comes back. -/
theorem axis_undone {inSize origSize : ℕ} {scale : K} (hscale : (origSize : K) * scale ≤ inSize)
    (hsize : 0 < halfEven ((origSize : K) * scale)) (hpos : 0 ≤ scale) {x : K} (hx : 0 ≤ x)
    (hlt : x ≤ origSize - 1) (pad : ℤ) :
    |(toPixel origSize (unletterbox inSize pad scale
      (toCanvas inSize origSize (halfEven (origSize * scale)) pad x)) : K) - x| ≤
        1 / (2 * scale) + 1 / 2 := by
  have hproduct : 0 < (origSize : K) * scale := by
    by_contra hnot
    have hle : halfEven ((origSize : K) * scale) ≤ 0 :=
      halfEven_le (by rw [Int.cast_zero]; exact not_lt.mp hnot)
    omega
  have horig : 0 < origSize := Nat.pos_of_ne_zero fun h => by simp [h] at hproduct
  have hin : 0 < inSize := Nat.cast_pos.mp (hproduct.trans_le hscale)
  have hscale' : 0 < scale := hpos.lt_of_ne fun h => by simp [← h] at hproduct
  refine (abs_toPixel_sub_le _ hx hlt).trans (add_le_add_left ?_ _)
  exact abs_unletterbox_sub_le pad hin horig hscale' hx (hlt.trans (by linarith))

/-- The letterbox is undone up to the rounding of the image's size and that of the coordinate. -/
theorem letterbox_undone (d : EdgeTPUPersonDetector K) (origW origH : ℕ)
    (hw : 0 < (d.letterbox origW origH).newW) (hh : 0 < (d.letterbox origW origH).newH) :
    let l := d.letterbox origW origH
    (0 ≤ l.padX ∧ l.padX + l.newW ≤ d.inW ∧ 0 ≤ l.padY ∧ l.padY + l.newH ≤ d.inH) ∧
    (∀ x : K, 0 ≤ x → x ≤ origW - 1 →
      |(toPixel origW (unletterbox d.inW l.padX l.scale
        (toCanvas d.inW origW l.newW l.padX x)) : K) - x| ≤ 1 / (2 * l.scale) + 1 / 2) ∧
    ∀ y : K, 0 ≤ y → y ≤ origH - 1 →
      |(toPixel origH (unletterbox d.inH l.padY l.scale
        (toCanvas d.inH origH l.newH l.padY y)) : K) - y| ≤ 1 / (2 * l.scale) + 1 / 2 := by
  have hpos : 0 ≤ (d.letterbox origW origH).scale :=
    le_min (div_nonneg (Nat.cast_nonneg _) (Nat.cast_nonneg _))
      (div_nonneg (Nat.cast_nonneg _) (Nat.cast_nonneg _))
  have hscale : ∀ {origSize inSize : ℕ}, (d.letterbox origW origH).scale ≤ (inSize : K) / origSize →
      (origSize : K) * (d.letterbox origW origH).scale ≤ inSize := by
    intro origSize inSize hle
    rcases Nat.eq_zero_or_pos origSize with rfl | horig
    · simp
    · rw [mul_comm]
      exact (le_div_iff₀ (Nat.cast_pos.mpr horig)).mp hle
  have hscaleW : (origW : K) * (d.letterbox origW origH).scale ≤ d.inW := hscale (min_le_left _ _)
  have hscaleH : (origH : K) * (d.letterbox origW origH).scale ≤ d.inH := hscale (min_le_right _ _)
  obtain ⟨hpadX, hfitX⟩ := fits_canvas hscaleW
  obtain ⟨hpadY, hfitY⟩ := fits_canvas hscaleH
  exact ⟨⟨hpadX, hfitX, hpadY, hfitY⟩,
    fun x hx hlt => axis_undone hscaleW hw hpos hx hlt _,
    fun y hy hlt => axis_undone hscaleH hh hpos hy hlt _⟩

/-- A camera frame on the canvas of the model. -/
theorem letterbox_undone_camera :
    ((mobileNet.letterbox 1280 720).newH = 360 ∧ (mobileNet.letterbox 1280 720).padY = 140) ∧
    let l := mobileNet.letterbox 1280 720
    (0 ≤ l.padX ∧ l.padX + l.newW ≤ 640 ∧ 0 ≤ l.padY ∧ l.padY + l.newH ≤ 640) ∧
    (∀ x : ℚ, 0 ≤ x → x ≤ 1280 - 1 →
      |(toPixel 1280 (unletterbox 640 l.padX l.scale
        (toCanvas 640 1280 l.newW l.padX x)) : ℚ) - x| ≤ 1 / (2 * l.scale) + 1 / 2) ∧
    ∀ y : ℚ, 0 ≤ y → y ≤ 720 - 1 →
      |(toPixel 720 (unletterbox 640 l.padY l.scale
        (toCanvas 640 720 l.newH l.padY y)) : ℚ) - y| ≤ 1 / (2 * l.scale) + 1 / 2 :=
  ⟨by decide +kernel, letterbox_undone mobileNet 1280 720 (by decide +kernel) (by decide +kernel)⟩

end SnipeIt.Detector
