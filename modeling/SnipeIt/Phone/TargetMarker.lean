import Mathlib.Tactic.FieldSimp
import SnipeIt.Phone.Markers

/-! # Markers on the video (`TacticalVideoPlayer.kt`)

`EnhancedTargetMarker` puts a box over a target, draws in it with a stroke, and hangs a
card below it, or above if there is no room below. Colors and texts are left out, and
the animation is at rest.
-/

namespace SnipeIt.Phone
open Support

variable {K : Type*} [Field K] [LinearOrder K]

/-! ## What is drawn -/

/-- What a line, a rectangle or an arc spans, in pixels, and the width of its stroke. -/
structure Stroke (K : Type*) where
  left : K
  top : K
  right : K
  bottom : K
  strokeWidth : K

def drawLine (x y x' y' strokeWidth : K) : Stroke K :=
  ⟨min x x', min y y', max x x', max y y', strokeWidth⟩

def drawRect (x y w h strokeWidth : K) : Stroke K := ⟨x, y, x + w, y + h, strokeWidth⟩

/-- `drawArc` from 180 over 180 degrees, which is the upper half of the oval. -/
def drawArc (x y w h strokeWidth : K) : Stroke K := ⟨x, y, x + w, y + h / (2 : ℤ), strokeWidth⟩

structure Drawing (K : Type*) where
  rectangle : Stroke K
  glow : List (Stroke K)
  corners : List (Stroke K)
  crosshair : List (Stroke K)
  lockIndicator : List (Stroke K)
  selectionIndicator : List (Stroke K)

def drawTarget (w h : K) (isLocked isSelected : Bool) : Drawing K :=
  let strokeWidth := if isSelected then 5 else if isLocked then 4 else 3
  let bracketSize := min (min w h * (1 / 5)) 24
  let corners := [(0, 0), (w - bracketSize, 0), (0, h - bracketSize),
    (w - bracketSize, h - bracketSize)]
  let cx := w / (2 : ℤ)
  let cy := h / (2 : ℤ)
  let crosshair := min (min w h * (1 / 10)) 14
  let lockSize := 12
  let lockX := w - lockSize - 8
  let lockY := 8
  let starSize := 8
  let starX := 8 + starSize
  let starY := 8 + starSize
  { rectangle := drawRect 0 0 w h strokeWidth
    glow := if isSelected then [drawRect (-4) (-4) (w + 8) (h + 8) (2 : ℤ)] else []
    corners := corners.flatMap fun pos =>
      [drawLine pos.1 pos.2 (pos.1 + bracketSize) pos.2 strokeWidth,
        drawLine pos.1 pos.2 pos.1 (pos.2 + bracketSize) strokeWidth]
    crosshair :=
      [drawLine (cx - crosshair) cy (cx + crosshair) cy (2 : ℤ),
        drawLine cx (cy - crosshair) cx (cy + crosshair) (2 : ℤ)]
    lockIndicator := if isLocked then
      [drawRect lockX (lockY + lockSize * ((2 : ℤ) / 5)) lockSize (lockSize * (3 / 5)) (2 : ℤ),
        drawArc (lockX + lockSize * (1 / 5)) lockY (lockSize * (3 / 5)) (lockSize * (3 / 5))
          (2 : ℤ)]
      else []
    selectionIndicator := if isSelected then
      [drawLine (starX - starSize) starY (starX + starSize) starY 3,
        drawLine starX (starY - starSize) starX (starY + starSize) 3]
      else [] }

structure Stroke.In (s : Stroke K) (w h : K) : Prop where
  left : 0 ≤ s.left
  top : 0 ≤ s.top
  right : s.right ≤ w
  bottom : s.bottom ≤ h

section

variable [IsStrictOrderedRing K] {w h x y x' y' width : K} {isLocked isSelected : Bool}

omit [IsStrictOrderedRing K] in
theorem drawLine_in (hx : 0 ≤ x ∧ x ≤ w) (hy : 0 ≤ y ∧ y ≤ h) (hx' : 0 ≤ x' ∧ x' ≤ w)
    (hy' : 0 ≤ y' ∧ y' ≤ h) : (drawLine x y x' y' width).In w h :=
  ⟨le_min hx.1 hx'.1, le_min hy.1 hy'.1, max_le hx.2 hx'.2, max_le hy.2 hy'.2⟩

/-- The brackets are a fifth of the smaller side at most. -/
theorem corners_in (hw : 0 < w) (hh : 0 < h) :
    ∀ s ∈ (drawTarget w h isLocked isSelected).corners, s.In w h := by
  obtain ⟨b, hb⟩ : ∃ b, b = min (min w h * (1 / 5)) 24 := ⟨_, rfl⟩
  have hpos : 0 ≤ b := hb ▸ le_min (mul_nonneg (le_min hw.le hh.le) (by norm_num)) (by norm_num)
  have hsmall : b ≤ min w h * (1 / 5) := hb ▸ min_le_left _ _
  have hbw : b ≤ w := by linarith [min_le_left w h]
  have hbh : b ≤ h := by linarith [min_le_right w h]
  intro s hs
  obtain ⟨pos, hmem, hline⟩ := List.mem_flatMap.mp hs
  rw [← hb] at hmem hline
  have hin : (0 ≤ pos.1 ∧ pos.1 + b ≤ w) ∧ 0 ≤ pos.2 ∧ pos.2 + b ≤ h := by
    simp only [List.mem_cons, List.not_mem_nil, or_false] at hmem
    rcases hmem with rfl | rfl | rfl | rfl <;> refine ⟨⟨?_, ?_⟩, ?_, ?_⟩ <;> dsimp only <;> linarith
  obtain ⟨⟨hx, hxb⟩, hy, hyb⟩ := hin
  rcases List.mem_pair.mp hline with rfl | rfl
  · exact drawLine_in ⟨hx, by linarith⟩ ⟨hy, by linarith⟩ ⟨by linarith, hxb⟩ ⟨hy, by linarith⟩
  · exact drawLine_in ⟨hx, by linarith⟩ ⟨hy, by linarith⟩ ⟨hx, by linarith⟩ ⟨by linarith, hyb⟩

/-- The crosshair goes a tenth of the smaller side to each of its ends at most. -/
theorem crosshair_in (hw : 0 < w) (hh : 0 < h) :
    ∀ s ∈ (drawTarget w h isLocked isSelected).crosshair, s.In w h := by
  obtain ⟨c, hc⟩ : ∃ c, c = min (min w h * (1 / 10)) 14 := ⟨_, rfl⟩
  have hpos : 0 ≤ c := hc ▸ le_min (mul_nonneg (le_min hw.le hh.le) (by norm_num)) (by norm_num)
  have hsmall : c ≤ min w h * (1 / 10) := hc ▸ min_le_left _ _
  have hcw : c ≤ w / 2 := by linarith [min_le_left w h]
  have hch : c ≤ h / 2 := by linarith [min_le_right w h]
  have htwo : ((2 : ℤ) : K) = 2 := by norm_num
  have hx : 0 ≤ w / (2 : ℤ) ∧ w / (2 : ℤ) ≤ w := by
    rw [htwo]
    exact ⟨by linarith, by linarith⟩
  have hy : 0 ≤ h / (2 : ℤ) ∧ h / (2 : ℤ) ≤ h := by
    rw [htwo]
    exact ⟨by linarith, by linarith⟩
  intro s hs
  rcases List.mem_pair.mp hs with rfl | rfl <;> rw [← hc]
  · exact drawLine_in ⟨by linarith, by linarith⟩ hy ⟨by linarith, by linarith⟩ hy
  · exact drawLine_in hx ⟨by linarith, by linarith⟩ hx ⟨by linarith, by linarith⟩

/-- The two signs need 24 pixels. -/
theorem indicators_in (hw : 24 ≤ w) (hh : 24 ≤ h) :
    ∀ s ∈ (drawTarget w h isLocked isSelected).lockIndicator ++
      (drawTarget w h isLocked isSelected).selectionIndicator, s.In w h := by
  intro s hs
  rcases List.mem_append.mp hs with hlock | hstar
  · cases isLocked with
    | false => cases hlock
    | true =>
      rcases List.mem_pair.mp hlock with rfl | rfl <;> constructor <;>
        simp only [drawRect, drawArc] <;> linarith
  · cases isSelected with
    | false => cases hstar
    | true =>
      rcases List.mem_pair.mp hstar with rfl | rfl <;> refine drawLine_in ⟨?_, ?_⟩ ⟨?_, ?_⟩ ⟨?_, ?_⟩
        ⟨?_, ?_⟩ <;> linarith

end

/-! ## Where it is put -/

/-- The region of the video in dp, and the pixels of a dp. -/
structure VideoRegion (K : Type*) [Field K] [LinearOrder K] where
  maxWidth : K
  maxHeight : K
  density : K
  maxWidth_pos : 0 < maxWidth
  maxHeight_pos : 0 < maxHeight
  density_pos : 0 < density

structure InfoCard (K : Type*) where
  left : K
  top : K
  width : K
  height : K

structure Marker (K : Type*) where
  targetX : K
  targetY : K
  targetW : K
  targetH : K
  canvas : Drawing K
  card : InfoCard K

def cardHeight : K := 72

/-- `EnhancedTargetMarker`. The card is as large as its content, but no larger than the box that it
is in, and in the middle of it. -/
def enhancedTargetMarker (region : VideoRegion K) (contentWidth contentHeight : K)
    (isLocked isSelected : Bool) (bbox : BoundingBox) : Marker K :=
  let targetX := region.maxWidth * ((bbox.x.toInt : K) / (1920 : ℤ))
  let targetY := region.maxHeight * ((bbox.y.toInt : K) / (1080 : ℤ))
  let targetW := region.maxWidth * ((bbox.width.toInt : K) / (1920 : ℤ))
  let targetH := region.maxHeight * ((bbox.height.toInt : K) / (1080 : ℤ))
  let placeCardAbove := region.maxHeight < targetY + targetH + cardHeight + 6
  let cardWidth := min contentWidth targetW
  { targetX := targetX
    targetY := targetY
    targetW := targetW
    targetH := targetH
    canvas := drawTarget (targetW * region.density) (targetH * region.density) isLocked isSelected
    card :=
      { left := targetX + (targetW - cardWidth) / (2 : ℤ)
        top := targetY + if placeCardAbove then -(cardHeight + 6) else targetH + 6
        width := cardWidth
        height := min contentHeight targetH } }

def Marker.Shows (m : Marker K) (region : VideoRegion K) (s : Stroke K) : Prop :=
  0 ≤ m.targetX * region.density + s.left ∧ 0 ≤ m.targetY * region.density + s.top ∧
    m.targetX * region.density + s.right ≤ region.maxWidth * region.density ∧
    m.targetY * region.density + s.bottom ≤ region.maxHeight * region.density

/-- The box is in the region, with its rectangle, its brackets and its crosshair; so are the signs
of a box of 24 pixels, and the glow if it is 4 pixels away from the edges. The card does not go
beyond the box to the sides. It is in the region if it is below the box and fits there, or above
with enough room. -/
structure Marker.OnScreen (m : Marker K) (region : VideoRegion K) : Prop where
  box : (0 ≤ m.targetX ∧ 0 < m.targetW ∧ m.targetX + m.targetW ≤ region.maxWidth) ∧
    0 ≤ m.targetY ∧ 0 < m.targetH ∧ m.targetY + m.targetH ≤ region.maxHeight
  lines : ∀ s ∈ m.canvas.rectangle :: (m.canvas.corners ++ m.canvas.crosshair), m.Shows region s
  indicators : 24 ≤ m.targetW * region.density → 24 ≤ m.targetH * region.density →
    ∀ s ∈ m.canvas.lockIndicator ++ m.canvas.selectionIndicator, m.Shows region s
  glow : ∀ s ∈ m.canvas.glow, m.Shows region s ↔
    (4 ≤ m.targetX * region.density ∧
      (m.targetX + m.targetW) * region.density + 4 ≤ region.maxWidth * region.density) ∧
    4 ≤ m.targetY * region.density ∧
      (m.targetY + m.targetH) * region.density + 4 ≤ region.maxHeight * region.density
  cardSides : m.targetX ≤ m.card.left ∧ m.card.left + m.card.width ≤ m.targetX + m.targetW
  card : 0 ≤ m.card.top ∧ m.card.top + m.card.height ≤ region.maxHeight ↔
    (m.targetY + m.targetH + cardHeight + 6 ≤ region.maxHeight ∧
      m.targetY + m.targetH + 6 + m.card.height ≤ region.maxHeight) ∨
    (region.maxHeight < m.targetY + m.targetH + cardHeight + 6 ∧ cardHeight + 6 ≤ m.targetY)

variable [IsStrictOrderedRing K]

/-- A side in the picture, on a screen of another size. -/
theorem scaled_side {x l : ℤ} {n size : K} (hn : 0 < n) (hsize : 0 < size) (hx : 0 ≤ x) (hl : 1 ≤ l)
    (hfit : ((x + l : ℤ) : K) ≤ n) : 0 ≤ size * ((x : K) / n) ∧ 0 < size * ((l : K) / n) ∧
      size * ((x : K) / n) + size * ((l : K) / n) ≤ size := by
  have hx' : (0 : K) ≤ x := Int.cast_nonneg hx
  have hl' : (0 : K) < l := Int.cast_pos.mpr hl
  refine ⟨mul_nonneg hsize.le (div_nonneg hx' hn.le), mul_pos hsize (div_pos hl' hn), ?_⟩
  calc size * ((x : K) / n) + size * ((l : K) / n) = size * (((x + l : ℤ) : K) / n) := by
        push_cast
        ring
    _ ≤ size * 1 := mul_le_mul_of_nonneg_left ((div_le_one hn).mpr hfit) hsize.le
    _ = size := mul_one size

variable {region : VideoRegion K} {contentWidth contentHeight : K} {isLocked isSelected : Bool}

/-- What is drawn in the box is drawn in the region. -/
theorem Marker.shows_of_in {m : Marker K} {s : Stroke K}
    (hbox : (0 ≤ m.targetX ∧ 0 < m.targetW ∧ m.targetX + m.targetW ≤ region.maxWidth) ∧
      0 ≤ m.targetY ∧ 0 < m.targetH ∧ m.targetY + m.targetH ≤ region.maxHeight)
    (h : s.In (m.targetW * region.density) (m.targetH * region.density)) : m.Shows region s := by
  obtain ⟨⟨hx, -, hright⟩, hy, -, hbottom⟩ := hbox
  have hdensity := region.density_pos.le
  have hright' := mul_le_mul_of_nonneg_right hright hdensity
  have hbottom' := mul_le_mul_of_nonneg_right hbottom hdensity
  rw [add_mul] at hright' hbottom'
  refine ⟨add_nonneg (mul_nonneg hx hdensity) h.left, add_nonneg (mul_nonneg hy hdensity) h.top,
    ?_, ?_⟩
  · exact (add_le_add_right h.right _).trans hright'
  · exact (add_le_add_right h.bottom _).trans hbottom'

theorem Marker.shows_glow_iff {m : Marker K}
    (hcanvas : m.canvas = drawTarget (m.targetW * region.density) (m.targetH * region.density)
      isLocked isSelected) :
    ∀ s ∈ m.canvas.glow, m.Shows region s ↔
      (4 ≤ m.targetX * region.density ∧
        (m.targetX + m.targetW) * region.density + 4 ≤ region.maxWidth * region.density) ∧
      4 ≤ m.targetY * region.density ∧
        (m.targetY + m.targetH) * region.density + 4 ≤ region.maxHeight * region.density := by
  rw [hcanvas]
  intro s hs
  cases isSelected with
  | false => cases hs
  | true =>
    rw [List.mem_singleton.mp hs, Marker.Shows]
    simp only [drawRect, add_mul]
    constructor
    · rintro ⟨hl, ht, hr, hbot⟩
      exact ⟨⟨by linarith, by linarith⟩, by linarith, by linarith⟩
    · rintro ⟨⟨hl, hr⟩, ht, hbot⟩
      exact ⟨by linarith, by linarith, by linarith, by linarith⟩

/-- A card no higher than its box, put `cardHeight` and the gap above the box or the gap below. -/
theorem card_fits_iff {top height card size : K} (htop : 0 ≤ top) (hheight : 0 < height)
    (hbottom : top + height ≤ size) (hcard : card ≤ height) :
    (0 ≤ top + (if size < top + height + cardHeight + 6 then -(cardHeight + 6) else height + 6) ∧
      top + (if size < top + height + cardHeight + 6 then -(cardHeight + 6) else height + 6) +
        card ≤ size) ↔
    (top + height + cardHeight + 6 ≤ size ∧ top + height + 6 + card ≤ size) ∨
      (size < top + height + cardHeight + 6 ∧ cardHeight + 6 ≤ top) := by
  rw [cardHeight]
  split_ifs with habove
  · constructor
    · rintro ⟨hroom, -⟩
      exact .inr ⟨habove, by linarith⟩
    · rintro (⟨hbelow, -⟩ | ⟨-, hroom⟩)
      · exact absurd habove hbelow.not_gt
      · exact ⟨by linarith, by linarith⟩
  · constructor
    · rintro ⟨-, hfit⟩
      exact .inl ⟨not_lt.mp habove, by linarith⟩
    · rintro (⟨-, hfit⟩ | ⟨habove', -⟩)
      · exact ⟨by linarith, by linarith⟩
      · exact absurd habove' habove

theorem enhancedTargetMarker_onScreen {b : BoundingBox} (hb : b.Inside 1920 1080) :
    (enhancedTargetMarker region contentWidth contentHeight isLocked isSelected b).OnScreen
      region := by
  have hright : ((b.x.toInt + b.width.toInt : ℤ) : K) ≤ (1920 : ℤ) := Int.cast_le.mpr hb.right
  have hbottom : ((b.y.toInt + b.height.toInt : ℤ) : K) ≤ (1080 : ℤ) :=
    Int.cast_le.mpr hb.bottom
  obtain ⟨hx, hw, hfitX⟩ := scaled_side (by norm_num) region.maxWidth_pos hb.left hb.width hright
  obtain ⟨hy, hh, hfitY⟩ := scaled_side (by norm_num) region.maxHeight_pos hb.top hb.height hbottom
  obtain ⟨m, hm⟩ : ∃ m, m =
    enhancedTargetMarker region contentWidth contentHeight isLocked isSelected b := ⟨_, rfl⟩
  have hbox : (0 ≤ m.targetX ∧ 0 < m.targetW ∧ m.targetX + m.targetW ≤ region.maxWidth) ∧
      0 ≤ m.targetY ∧ 0 < m.targetH ∧ m.targetY + m.targetH ≤ region.maxHeight :=
    hm ▸ ⟨⟨hx, hw, hfitX⟩, hy, hh, hfitY⟩
  have hcanvas : m.canvas = drawTarget (m.targetW * region.density) (m.targetH * region.density)
      isLocked isSelected := by rw [hm]; rfl
  have hpos : 0 < m.targetW * region.density ∧ 0 < m.targetH * region.density :=
    ⟨mul_pos hbox.1.2.1 region.density_pos, mul_pos hbox.2.2.1 region.density_pos⟩
  have hcard : m.card = ⟨m.targetX + (m.targetW - min contentWidth m.targetW) / (2 : ℤ),
      m.targetY + if region.maxHeight < m.targetY + m.targetH + cardHeight + 6 then
        -(cardHeight + 6) else m.targetH + 6,
      min contentWidth m.targetW, min contentHeight m.targetH⟩ := by rw [hm]; rfl
  rw [← hm]
  refine ⟨hbox, ?_, ?_, Marker.shows_glow_iff hcanvas, ?_, ?_⟩
  · rw [hcanvas]
    intro s hs
    refine Marker.shows_of_in hbox ?_
    rcases List.mem_cons.mp hs with rfl | hs
    · exact ⟨le_rfl, le_rfl, (zero_add _).le, (zero_add _).le⟩
    · rcases List.mem_append.mp hs with hs | hs
      · exact corners_in hpos.1 hpos.2 s hs
      · exact crosshair_in hpos.1 hpos.2 s hs
  · rw [hcanvas]
    exact fun hwide hhigh s hs => Marker.shows_of_in hbox (indicators_in hwide hhigh s hs)
  · rw [hcard]
    have hle := min_le_right contentWidth m.targetW
    exact ⟨by dsimp only; linarith, by dsimp only; linarith⟩
  · rw [hcard]
    exact card_fits_iff hbox.2.1 hbox.2.2.1 hbox.2.2.2 (min_le_right contentHeight m.targetH)

/-- A screen with two pixels for each dp. -/
def twoPixels : VideoRegion ℚ := ⟨960, 540, 2, by norm_num, by norm_num, by norm_num⟩

def walking : List (SessionAct ℚ) :=
  [⟨1100, .trySend [⟨"1", "HUMAN", 0.9, ⟨1600, 540, 200, 400⟩, 0⟩] 0⟩, ⟨1100, .pacer⟩,
    ⟨1200, .trySend [⟨"1", "HUMAN", 0.75, ⟨1650, 580, 270, 450⟩, 100⟩] 100⟩, ⟨1200, .pacer⟩]

end SnipeIt.Phone
