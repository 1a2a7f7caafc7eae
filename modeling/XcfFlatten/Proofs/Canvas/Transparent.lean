import XcfFlatten.Proofs.Canvas.BaseMask
import XcfFlatten.Proofs.Canvas.Invariant

/-!
# Pixels that have nothing to add

A pixel whose alpha is 0 once opacity and mask have been multiplied in has nothing to add to the
pixel below it. Pixels that store alpha 0, and layers of opacity 0, are passed over. Where it is the
mask or the rounding that leaves nothing, the pixel is mixed in like any other, at no weight. For
colours that is the same thing (`Layer.mergedColor_clear`). For gray levels it is not
(`Layer.mergedGray_clear`): what a level is mixed with is the luma of the pixel below, so that a
layer that nothing is to be seen of takes the colour out of what it lies over.

* `Canvas.colorAt?_mergeDown_clear_iff` — what a further layer leaves where its alpha comes to 0.
-/

namespace XcfFlatten

/-- No pixel gains alpha where it is thinned out. -/
theorem Texel.alpha_thin_le (texel : Texel) (random : UInt8) :
    (texel.thin random).alpha ≤ texel.alpha := by
  cases texel with
  | color pixel => exact Dissolve.keep_le _ _
  | level v => exact UInt8.le_refl _
  | levelAlpha v a => exact Dissolve.keep_le _ _

namespace Layer

variable {layer : Layer} {sample : Sample} {below : Pixel}

/-! ### Effective alphas of 0 -/

/-- The pixel after the dissolve step is that of the layer, or what thinning it out leaves of it. -/
theorem WellShaped.texel_dissolved (h : layer.WellShaped) {x y : Nat} (hx : x < layer.width)
    (hy : y < layer.height) {stored texel : Texel}
    (hstored : layer.tiles.texelAt? x y = some stored)
    (htexel : layer.dissolved.tiles.texelAt? x y = some texel) :
    texel = stored ∨ ∃ random, texel = stored.thin random := by
  have hsample := h.sampleAt?_dissolved hx hy
  have hx' : x < layer.dissolved.width := by rwa [dissolved_width]
  have hy' : y < layer.dissolved.height := by rwa [dissolved_height]
  rw [h.dissolved.sampleAt?_eq hx' hy', htexel, h.sampleAt?_eq hx hy, hstored, Option.map_some,
    Option.map_some, Option.map_some] at hsample
  -- The texel is the stored one, thinned out or not.
  have hthin : texel = (layer.thinAt x y ⟨stored, layer.maskAt? x y⟩).texel :=
    congrArg Sample.texel (Option.some.inj hsample)
  rw [hthin, thinAt]
  split
  · exact Or.inr ⟨_, rfl⟩
  · exact Or.inl rfl

/-- What the dissolve step leaves of a pixel has no more effect than the pixel: where nothing of a
layer is to be seen, that is so whether or not it is thinned out. -/
theorem WellShaped.effectiveAlpha_dissolved_le (h : layer.WellShaped) {x y : Nat}
    (hx : x < layer.width) (hy : y < layer.height) {stored texel : Texel}
    (hstored : layer.tiles.texelAt? x y = some stored)
    (htexel : layer.dissolved.tiles.texelAt? x y = some texel) (mask : Option UInt8) :
    effectiveAlpha layer.props.opacity mask texel.alpha ≤
      effectiveAlpha layer.props.opacity mask stored.alpha := by
  refine effectiveAlpha_mono _ _ ?_
  rcases h.texel_dissolved hx hy hstored htexel with rfl | ⟨random, rfl⟩
  · exact UInt8.le_refl _
  · exact Texel.alpha_thin_le _ _

/-- A pixel of no effect has none either where its alpha is clipped. -/
theorem alphaOf_clipped_eq_zero (hclear : layer.alphaOf sample sample.texel.alpha = 0)
    (clips : Bool) :
    layer.alphaOf sample
      (if clips then min sample.texel.alpha below.alpha else sample.texel.alpha) = 0 := by
  have hclipped := clipped_le clips sample.texel.alpha below.alpha
  exact Nat.eq_zero_of_le_zero (hclear ▸ effectiveAlpha_mono _ _ hclipped)

/-! ### What is left of the pixel below -/

/-- Of a visible pixel, a colour of no effect leaves everything, in every mode. -/
theorem mergedColor_clear (palette : Palette)
    (hclear : layer.alphaOf sample sample.texel.alpha = 0) (hbelow : below.alpha ≠ 0) :
    layer.mergedColor palette sample below = below := by
  unfold mergedColor
  dsimp only
  rw [alphaOf_clipped_eq_zero hclear]
  exact overPixel_clear _ hbelow _

/-- A level of no effect leaves the luma of the pixel. -/
theorem mergedGray_clear (hclear : layer.alphaOf sample sample.texel.alpha = 0)
    (hbelow : below.alpha ≠ 0) :
    layer.mergedGray sample below = ⟨Rgb.gray below.color.luma, below.alpha⟩ := by
  unfold mergedGray
  dsimp only
  rw [alphaOf_clipped_eq_zero hclear, show UInt8.ofNat 0 = 0 from rfl, overAlpha_clear,
    mix_clear _ _ hbelow, ite_self]

/-- **Nothing to add.** A pixel of no effect leaves a visible pixel as it is, unless it is a gray
level that stores some alpha. -/
theorem mergedPixel_clear (hkind : layer.kind.isIndexed = false) (palette : Palette)
    {hasAlpha : Bool} (hclear : layer.alphaOf sample sample.texel.alpha = 0)
    (hholdable : Canvas.Holdable hasAlpha below) (hbelow : below.alpha ≠ 0) :
    layer.mergedPixel palette hasAlpha sample below =
      if layer.kind.isGray = true ∧ sample.texel.alpha ≠ 0 then
        ⟨Rgb.gray below.color.luma, below.alpha⟩
      else below := by
  -- A canvas without alpha stores what it is given at the alpha that it has anyway.
  have hwrite (color : Rgb) :
      Canvas.writePixel hasAlpha ⟨color, below.alpha⟩ = ⟨color, below.alpha⟩ := by
    have hcolor : Canvas.Holdable hasAlpha ⟨color, below.alpha⟩ := hholdable
    exact hcolor.writePixel_eq
  unfold mergedPixel
  rw [hkind, if_neg Bool.false_ne_true]
  by_cases halpha : sample.texel.alpha = 0
  · rw [if_pos halpha, if_neg fun hgray => hgray.2 halpha]
  · rw [if_neg halpha]
    by_cases hgray : layer.kind.isGray = true
    · rw [if_pos hgray, if_pos ⟨hgray, halpha⟩, mergedGray_clear hclear hbelow]
      exact hwrite _
    · rw [if_neg hgray, if_neg fun h => hgray h.1, mergedColor_clear palette hclear hbelow]
      exact hwrite below.color

end Layer

namespace Canvas

variable {layer : Layer} {cells : Raster Pixel} {x y : Nat} {below : Pixel}

/-- On a canvas of colours, a further layer changes each pixel by what lands there. -/
theorem colorAt?_mergeDown_color (h : layer.WellShaped) (hopacity : layer.props.opacity ≠ 0)
    {sample : Sample} (hlands : layer.dissolved.landing? x y = some sample) (palette : Palette)
    (hasAlpha : Bool) (hx : x < cells.width) (hy : y < cells.height)
    (hbelow : cells.get? x y = some below) :
    ((color hasAlpha cells).mergeDown layer palette).colorAt? x y =
      some (layer.mergedPixel palette hasAlpha sample below) := by
  have haccepts : (color hasAlpha cells).accepts layer.kind = true := rfl
  rw [mergeDown_eq, haccepts, if_neg (by simp [hopacity]), repaint, colorAt?,
    Raster.get?_paint h.dissolved _ _ hx hy, hlands, hbelow]
  rfl

/-- **Pixels without effect.** On a sound canvas of colours, take a visible pixel under a layer that
is not indexed, of any mode, opacity and mask, wherever it is placed. If the alpha of the layer's
pixel there, with opacity and mask multiplied in, is 0, then the pixel of the canvas keeps its
alpha, and it keeps its colour, too, exactly if the layer is not gray, or its opacity or the pixel's
alpha is 0, or the colour is a gray already. The layer's pixel is the one that the dissolve step
leaves, whose alpha comes to 0 wherever that of the stored pixel does. -/
theorem colorAt?_mergeDown_clear_iff (h : layer.WellShaped) (hkind : layer.kind.isIndexed = false)
    (palette : Palette) {hasAlpha : Bool} (hsound : (color hasAlpha cells).Sound)
    (hx : x < cells.width) (hy : y < cells.height) (hover : layer.LiesOver x y)
    (hbelow : cells.get? x y = some below) (hvisible : below.alpha ≠ 0) :
    ∃ stored texel shown,
      layer.tiles.texelAt? (layer.columnAt x) (layer.rowAt y) = some stored ∧
      layer.dissolved.tiles.texelAt? (layer.columnAt x) (layer.rowAt y) = some texel ∧
      ((color hasAlpha cells).mergeDown layer palette).colorAt? x y = some shown ∧
      effectiveAlpha layer.props.opacity (layer.maskAt? (layer.columnAt x) (layer.rowAt y))
          texel.alpha ≤
        effectiveAlpha layer.props.opacity (layer.maskAt? (layer.columnAt x) (layer.rowAt y))
          stored.alpha ∧
      (effectiveAlpha layer.props.opacity (layer.maskAt? (layer.columnAt x) (layer.rowAt y))
          texel.alpha = 0 →
        shown.alpha = below.alpha ∧
        (shown = below ↔
          (layer.kind.isGray = true → layer.props.opacity = 0 ∨ texel.alpha = 0 ∨
            below.color = Rgb.gray below.color.luma))) := by
  obtain ⟨stored, hstored, -⟩ := h.exists_sample hover.columnAt_lt hover.rowAt_lt
  obtain ⟨texel, htexel, hlands⟩ := h.exists_landing_dissolved hover
  have hthinned := h.effectiveAlpha_dissolved_le hover.columnAt_lt hover.rowAt_lt hstored htexel
    (layer.maskAt? (layer.columnAt x) (layer.rowAt y))
  -- An opaque canvas holds opaque pixels only.
  have hholdable : Holdable hasAlpha below := by
    cases hsound with
    | color hall => exact hall.of_get? hbelow
  by_cases hopacity : layer.props.opacity = 0
  · -- A layer of opacity 0 is passed over.
    have hpassed : (color hasAlpha cells).mergeDown layer palette = color hasAlpha cells := by
      rw [mergeDown_eq, hopacity]
      rfl
    rw [hpassed]
    exact ⟨stored, texel, below, hstored, htexel, hbelow, hthinned, fun _ =>
      ⟨rfl, iff_of_true rfl fun _ => Or.inl hopacity⟩⟩
  · refine ⟨stored, texel, _, hstored, htexel,
      colorAt?_mergeDown_color h hopacity hlands palette hasAlpha hx hy hbelow, hthinned,
      fun hclear => ?_⟩
    -- The effective alpha is zero, so the texel adds nothing of its own.
    have hnothing : layer.alphaOf ⟨texel, layer.maskAt? (layer.columnAt x) (layer.rowAt y)⟩
        texel.alpha = 0 := hclear
    rw [Layer.mergedPixel_clear hkind palette hnothing hholdable hvisible]
    dsimp only
    by_cases hgray : layer.kind.isGray = true ∧ texel.alpha ≠ 0
    · -- The level has been mixed with the luma, which is the colour only if that is a gray.
      rw [if_pos hgray]
      refine ⟨rfl, fun hsame _ => Or.inr (Or.inr (congrArg Pixel.color hsame).symm),
        fun hfits => ?_⟩
      rcases hfits hgray.1 with hzero | hzero | hcolor
      · exact absurd hzero hopacity
      · exact absurd hzero hgray.2
      · rw [← hcolor]
    · rw [if_neg hgray]
      -- A pixel that is not gray, or has no alpha of its own, leaves what is below.
      refine ⟨rfl, iff_of_true rfl fun hkind => Or.inr (Or.inl ?_)⟩
      exact Decidable.byContradiction fun halpha => hgray ⟨hkind, halpha⟩

/-- A gray layer of one pixel, which its mask hides. -/
def hiddenGrayLayer : Layer where
  width := 1
  height := 1
  kind := .gray
  props := { applyMask := .on }
  tiles := ⟨1, 1, #[⟨1, 1, .level #[200]⟩]⟩
  mask := some { width := 1, height := 1, props := {}, tiles := ⟨1, 1, #[⟨1, 1, .level #[0]⟩]⟩ }

/-- Over a gray pixel it changes nothing. -/
theorem colorAt?_hiddenGrayLayer_over_gray :
    (hiddenGrayLayer.WellShaped ∧ hiddenGrayLayer.kind.isIndexed = false ∧
      (filledColor 1 1 false (Rgb.gray 9).solid).Sound ∧ hiddenGrayLayer.LiesOver 0 0) ∧
      ((filledColor 1 1 false (Rgb.gray 9).solid).mergeDown hiddenGrayLayer #[]).colorAt? 0 0 =
        some (Rgb.gray 9).solid := by
  have hshaped : hiddenGrayLayer.WellShaped := by decide
  have hover : hiddenGrayLayer.LiesOver 0 0 := by decide
  have hsound : (filledColor 1 1 false (Rgb.gray 9).solid).Sound := sound_filledColor 1 1 false _
  obtain ⟨-, texel, shown, -, -, hshown, -, hkept⟩ :=
    colorAt?_mergeDown_clear_iff hshaped rfl #[] hsound Nat.one_pos Nat.one_pos hover rfl
      (by decide)
  have hmask : hiddenGrayLayer.maskAt? (hiddenGrayLayer.columnAt 0) (hiddenGrayLayer.rowAt 0) =
      some 0 := by decide
  have hclear : effectiveAlpha hiddenGrayLayer.props.opacity (some 0) texel.alpha = 0 :=
    mul255_zero_right _
  -- The pixel below is gray already.
  have hsame : shown = (Rgb.gray 9).solid :=
    (hkept (hmask ▸ hclear)).2.mpr fun _ => Or.inr (Or.inr (by decide))
  exact ⟨⟨hshaped, rfl, hsound, hover⟩, hshown.trans (congrArg some hsame)⟩

/-- Over a red pixel it does: hidden as it is, it leaves the red's luma. -/
theorem colorAt?_hiddenGrayLayer_over_red :
    (hiddenGrayLayer.WellShaped ∧ hiddenGrayLayer.LiesOver 0 0 ∧
      hiddenGrayLayer.tiles.texelAt? 0 0 = some (.level 200) ∧
      hiddenGrayLayer.maskAt? 0 0 = some 0 ∧
      effectiveAlpha hiddenGrayLayer.props.opacity (some 0) 255 = 0) ∧
      (filledColor 1 1 false ⟨⟨255, 0, 0⟩, 255⟩).colorAt? 0 0 = some ⟨⟨255, 0, 0⟩, 255⟩ ∧
      ((filledColor 1 1 false ⟨⟨255, 0, 0⟩, 255⟩).mergeDown hiddenGrayLayer #[]).colorAt? 0 0 =
        some ⟨⟨87, 87, 87⟩, 255⟩ := by
  refine ⟨⟨by decide, by decide, by decide, by decide, by decide⟩, by decide, ?_⟩
  decide +kernel

end Canvas

end XcfFlatten
