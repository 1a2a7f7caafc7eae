import XcfFlatten.Proofs.Canvas.IndexedStack
import XcfFlatten.Proofs.Canvas.GrayExpansion

/-!
# The mask of the lowest layer

The canvas is made for the kind and the opacity of the lowest layer, and before anyone looks at its
mask. A layer of full opacity that stores no alpha gets a canvas that stores none either
(`Layer.FillsCanvas`), and there the mask is lost: the layer shows opaque throughout
(`Canvas.colorAt?_lowest_iff`). Everywhere else opacity and mask are both multiplied into its alpha.
-/

namespace XcfFlatten

/-! ### The canvas of a layer that is not indexed -/

/-- The colour of a pixel that is no palette index. -/
def Texel.plainColor : Texel → Rgb
  | color pixel => pixel.color
  | level v => Rgb.gray v
  | levelAlpha v _ => Rgb.gray v

/-- The pixels of gray layers are levels, not colours. -/
theorem Texel.OfKind.gray_value {texel : Texel} {kind : LayerKind} (h : texel.OfKind kind)
    (hkind : kind.isGray = true) : Rgb.gray texel.value = texel.plainColor := by
  cases texel with
  | color pixel => exact absurd rfl (h.ne_color hkind pixel)
  | level v => rfl
  | levelAlpha v a => rfl

/-- Whether the canvas of a lowest layer stores no alpha because the layer stores none and has full
opacity. -/
def Layer.FillsCanvas (layer : Layer) : Prop :=
  (layer.kind = .rgb ∨ layer.kind = .gray) ∧ layer.props.opacity = 255

instance (layer : Layer) : Decidable layer.FillsCanvas := inferInstanceAs (Decidable (_ ∧ _))

namespace Layer

variable {layer : Layer}

/-- A pixel of a layer without indices has its own colour, whatever the palette is. -/
theorem colorOf_of_not_isIndexed (hkind : layer.kind.isIndexed = false) (palette : Palette)
    (sample : Sample) : layer.colorOf palette sample = sample.texel.plainColor := by
  unfold colorOf Texel.plainColor
  rw [hkind]
  cases sample.texel <;> rfl

/-- What a layer that is not thinned out shows where it lies over the canvas. -/
theorem WellShaped.exists_landing (h : layer.WellShaped) {x y : Nat} (hover : layer.LiesOver x y)
    (hsettled : layer.thinsOut = false) :
    ∃ texel, layer.tiles.texelAt? (layer.columnAt x) (layer.rowAt y) = some texel ∧
      layer.dissolved.landing? x y =
        some ⟨texel, layer.maskAt? (layer.columnAt x) (layer.rowAt y)⟩ := by
  obtain ⟨texel, htexel, hlands⟩ := h.exists_landing_dissolved hover
  rw [dissolved_of_not_thinsOut hsettled] at htexel
  exact ⟨texel, htexel, hlands⟩

end Layer

namespace Canvas

variable {layer : Layer} {x y : Nat} {sample : Sample}

/-- On a canvas of colours, the lowest layer leaves its own colour. -/
theorem colorAt?_paintBase_color (h : layer.WellShaped) (hkind : layer.kind.isIndexed = false)
    (hlands : layer.dissolved.landing? x y = some sample) (palette : Palette) (hasAlpha : Bool)
    (cells : Raster Pixel) (hx : x < cells.width) (hy : y < cells.height) :
    ((color hasAlpha cells).paintBase layer palette).colorAt? x y =
      some (writePixel hasAlpha ⟨sample.texel.plainColor,
        UInt8.ofNat (effectiveAlpha layer.props.opacity sample.mask sample.texel.alpha)⟩) := by
  obtain ⟨below, hbelow⟩ := cells.exists_get? hx hy
  -- The base rule does not look at what is below.
  have hpixel : layer.basePixel palette hasAlpha sample below =
      writePixel hasAlpha ⟨sample.texel.plainColor,
        UInt8.ofNat (effectiveAlpha layer.props.opacity sample.mask sample.texel.alpha)⟩ := by
    unfold Layer.basePixel
    rw [Layer.colorOf_of_not_isIndexed hkind, hkind]
    rfl
  rw [paintBase_eq, repaint, colorAt?, Raster.get?_paint h.dissolved _ _ hx hy, hlands, hbelow]
  exact congrArg some hpixel

/-- On a canvas of gray levels, the lowest layer leaves its own level, opaque. -/
theorem colorAt?_paintBase_gray (h : layer.WellShaped) (hkind : layer.kind = .gray)
    (hlands : layer.dissolved.landing? x y = some sample) (palette : Palette)
    (cells : Raster UInt8) (hx : x < cells.width) (hy : y < cells.height) :
    ((indexed .gray8 grayRamp cells).paintBase layer palette).colorAt? x y =
      some sample.texel.plainColor.solid := by
  obtain ⟨below, hbelow⟩ := cells.exists_get? hx hy
  -- Every level has an entry in the ramp, so the level is stored as it is.
  have hindex : layer.baseIndex grayRamp sample below = sample.texel.value := by
    unfold Layer.baseIndex
    rw [hkind]
    exact writeIndex_grayRamp _ _
  have hstored : sample.texel.OfKind .gray := by
    rw [← hkind, ← Layer.dissolved_kind]
    exact h.dissolved.ofKind_landing? hlands
  rw [paintBase_eq, repaint, colorAt?, Raster.get?_paint h.dissolved _ _ hx hy, hlands, hbelow,
    Option.map_some, Option.map_some, Option.elim_some, hindex, entry_grayRamp,
    hstored.gray_value rfl]

/-- What the lowest layer shows. -/
theorem exists_colorAt?_lowest {width height : Nat} (h : layer.WellShaped)
    (hkind : layer.kind.isIndexed = false) (hlands : layer.dissolved.landing? x y = some sample)
    (hx : x < width) (hy : y < height) (palette document : Palette) :
    ∃ canvas, forBase? width height layer.kind layer.props.opacity palette = some canvas ∧
      (canvas.paintBase layer document).colorAt? x y =
        some ⟨sample.texel.plainColor, if layer.FillsCanvas then 255 else
          UInt8.ofNat (effectiveAlpha layer.props.opacity sample.mask sample.texel.alpha)⟩ := by
  -- Every other canvas has alpha and takes the masked one as it is.
  have hclear : ¬ layer.FillsCanvas →
      ((filledColor width height true Pixel.clear).paintBase layer document).colorAt? x y =
        some ⟨sample.texel.plainColor, if layer.FillsCanvas then 255 else
          UInt8.ofNat (effectiveAlpha layer.props.opacity sample.mask sample.texel.alpha)⟩ := by
    intro hfills
    rw [if_neg hfills]
    exact colorAt?_paintBase_color h hkind hlands document true
      (Raster.filled width height Pixel.clear) hx hy
  cases hk : layer.kind with
  | indexed | indexedAlpha =>
    rw [hk] at hkind
    cases hkind
  | rgba | grayAlpha =>
    refine ⟨_, rfl, hclear ?_⟩
    rintro ⟨hplain, -⟩
    rw [hk] at hplain
    exact absurd hplain (by decide)
  | rgb =>
    refine ⟨_, rfl, ?_⟩
    -- At full opacity the canvas drops alphas as they are written.
    by_cases hopacity : layer.props.opacity = 255
    · rw [if_pos hopacity, if_pos ⟨Or.inl hk, hopacity⟩]
      exact colorAt?_paintBase_color h hkind hlands document false
        (Raster.filled width height _) hx hy
    · rw [if_neg hopacity]
      exact hclear fun hfills => hopacity hfills.2
  | gray =>
    refine ⟨_, rfl, ?_⟩
    -- At full opacity the canvas has nothing but opaque grays.
    by_cases hopacity : layer.props.opacity = 255
    · rw [if_pos hopacity, if_pos ⟨Or.inr hk, hopacity⟩]
      exact colorAt?_paintBase_gray h hk hlands document
        (Raster.filled width height _) hx hy
    · rw [if_neg hopacity]
      exact hclear fun hfills => hopacity hfills.2

/-- **The lowest layer.** A layer that is neither indexed nor dissolved, put down as the lowest one,
shows its own colour at every position it lies over. Its alpha there is that of the pixel with the
opacity and the mask multiplied in, with one exception: a layer of full opacity that stores no alpha
is opaque, and so shows what the mask asks for only where the mask is full or does not apply. -/
theorem colorAt?_lowest_iff {width height : Nat} (h : layer.WellShaped)
    (hkind : layer.kind.isIndexed = false) (hmode : layer.props.mode.isDissolve = false)
    (hx : x < width) (hy : y < height) (hover : layer.LiesOver x y) (palette document : Palette) :
    ∃ canvas texel shown,
      forBase? width height layer.kind layer.props.opacity palette = some canvas ∧
      layer.tiles.texelAt? (layer.columnAt x) (layer.rowAt y) = some texel ∧
      (canvas.paintBase layer document).colorAt? x y = some shown ∧
      shown.color = texel.plainColor ∧
      (layer.FillsCanvas → shown.alpha = 255) ∧
      (shown.alpha.toNat = effectiveAlpha layer.props.opacity
          (layer.maskAt? (layer.columnAt x) (layer.rowAt y)) texel.alpha ↔
        (layer.FillsCanvas → texel.alpha = 255 ∧
          ∀ m, layer.maskAt? (layer.columnAt x) (layer.rowAt y) = some m → m = 255)) := by
  have hsettled : layer.thinsOut = false := by
    rw [Layer.thinsOut, hmode, Bool.false_and]
  obtain ⟨texel, htexel, hlands⟩ := h.exists_landing hover hsettled
  obtain ⟨canvas, hcanvas, hcolor⟩ := exists_colorAt?_lowest h hkind hlands hx hy palette document
  refine ⟨canvas, texel, _, hcanvas, htexel, hcolor, rfl, fun hfills => if_pos hfills, ?_⟩
  dsimp only
  by_cases hfills : layer.FillsCanvas
  · -- On an opaque canvas the alpha is right only if it would have been 255.
    rw [if_pos hfills, hfills.2, ← effectiveAlpha_full_iff]
    exact ⟨fun heq _ => heq.symm, fun heq => (heq hfills).symm⟩
  · rw [if_neg hfills, toNat_effectiveAlpha]
    exact iff_of_true rfl (fun hfills' => absurd hfills' hfills)

/-- A masked layer of one pixel of full opacity that stores no alpha. -/
def maskedLayer : Layer where
  width := 1
  height := 1
  kind := .rgb
  props := { applyMask := .on }
  tiles := ⟨1, 1, #[⟨1, 1, .color #[⟨⟨9, 8, 7⟩, 255⟩]⟩]⟩
  mask := some { width := 1, height := 1, props := {}, tiles := ⟨1, 1, #[⟨1, 1, .level #[128]⟩]⟩ }

/-- At a lower opacity the mask shows. -/
theorem colorAt?_maskedLayer_translucent :
    let layer := { maskedLayer with props := { maskedLayer.props with opacity := 254 } }
    (layer.WellShaped ∧ layer.kind.isIndexed = false ∧ layer.props.mode.isDissolve = false ∧
      layer.LiesOver 0 0) ∧
      ∃ canvas texel shown, forBase? 1 1 .rgb 254 #[] = some canvas ∧
        layer.tiles.texelAt? 0 0 = some texel ∧
        (canvas.paintBase layer #[]).colorAt? 0 0 = some shown ∧ shown.color = texel.plainColor ∧
        shown.alpha.toNat = effectiveAlpha 254 (some 128) texel.alpha := by
  intro layer
  have hshaped : layer.WellShaped := by decide
  have hover : layer.LiesOver 0 0 := by decide
  obtain ⟨canvas, texel, shown, hcanvas, htexel, hshown, hcolor, -, halpha⟩ :=
    colorAt?_lowest_iff hshaped rfl rfl (x := 0) (y := 0) Nat.one_pos Nat.one_pos hover #[] #[]
  refine ⟨⟨hshaped, rfl, rfl, hover⟩, canvas, texel, shown, hcanvas, htexel, hshown, hcolor, ?_⟩
  -- At opacity 254 the canvas has alpha, so that the mask shows.
  have hmask : layer.maskAt? (layer.columnAt 0) (layer.rowAt 0) = some 128 := by decide
  rw [halpha.mpr fun hfills => absurd hfills (by decide), hmask]

/-- At full opacity it does not: the pixel is opaque, and with the mask its alpha would be 128. -/
theorem colorAt?_maskedLayer :
    maskedLayer.WellShaped ∧ maskedLayer.LiesOver 0 0 ∧
      maskedLayer.tiles.texelAt? 0 0 = some (.color ⟨⟨9, 8, 7⟩, 255⟩) ∧
      maskedLayer.maskAt? 0 0 = some 128 ∧
      ∃ canvas, forBase? 1 1 maskedLayer.kind maskedLayer.props.opacity #[] = some canvas ∧
        (canvas.paintBase maskedLayer #[]).colorAt? 0 0 = some ⟨⟨9, 8, 7⟩, 255⟩ ∧
        effectiveAlpha maskedLayer.props.opacity (some 128) 255 = 128 := by
  refine ⟨by decide, by decide, by decide, by decide, _, rfl, ?_, by decide⟩
  decide +kernel

end Canvas

end XcfFlatten
