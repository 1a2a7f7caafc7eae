import XcfFlatten.Proofs.Canvas.Transparent

/-!
# Layers that hide what is below them

A layer that covers a canvas of colours with opaque pixels (`Layer.Covering`) leaves nothing of what
was there. Whatever the two canvases looked like that it is composited onto, they are the same
afterwards, and so is whatever is composited onto them later: a stack shows what is below such a
layer only in the format of its canvas.

Opaque pixels do not hide what is below in every mode. A mode that leaves the alpha below as it is
lets that through, and the modes that do not are among those that pass colours through unchanged
(`LayerMode.affectsAlpha_iff`, `LayerMode.isPlain_of_affectsAlpha`). In one of them a layer is
thinned out at random, but opaque pixels are always kept.

* `Layer.Covering.mergedPixel_eq` — what is left of any pixel under such a layer;
* `Canvas.mergeDown_covering` — two canvases, and two stacks.
-/

namespace XcfFlatten

/-! ### Modes -/

namespace LayerMode

variable {id : Nat} {mode : LayerMode} (h : ofId? id = some mode)
include h

/-- A mode that was found by its id has one of the known ids. -/
theorem lt_count_of_ofId? : id < count := by
  refine Decidable.byContradiction fun hge => ?_
  rw [ofId?, if_pos (Nat.not_lt.mp hge)] at h
  cases h

/-- The modes that change the alpha below are the first three and the successor of the first. -/
theorem affectsAlpha_iff : mode.affectsAlpha = true ↔ id = 0 ∨ id = 1 ∨ id = 2 ∨ id = 28 := by
  have hall : ∀ id < count, ∀ mode ∈ ofId? id,
      mode.affectsAlpha = true ↔ id = 0 ∨ id = 1 ∨ id = 2 ∨ id = 28 := by decide
  exact hall id (lt_count_of_ofId? h) mode h

/-- They pass colours through. -/
theorem isPlain_of_affectsAlpha (haffects : mode.affectsAlpha = true) :
    mode.blend.isPlain = true := by
  have hall : ∀ id < count, ∀ mode ∈ ofId? id,
      mode.affectsAlpha = true → mode.blend.isPlain = true := by decide
  exact hall id (lt_count_of_ofId? h) mode h haffects

end LayerMode

namespace BlendMode

variable {mode : BlendMode} (h : mode.isPlain = true)
include h

/-- A plain mode passes the colour of the source through. -/
theorem blendColor_of_isPlain (source below : Rgb) : mode.blendColor source below = source := by
  cases mode with
  | normal | dissolve | behind => rfl
  | _ => cases h

theorem blendGray_of_isPlain (source below : UInt8) : mode.blendGray source below = source := by
  cases mode with
  | normal | dissolve | behind => rfl
  | _ => cases h

theorem mixesColor_of_isPlain : mode.mixesColor = false := by
  rw [mixesColor, h, Bool.not_true]

theorem mixesGray_of_isPlain : mode.mixesGray = false := by
  rw [mixesGray, mixesColor_of_isPlain h, Bool.false_and]

end BlendMode

/-! ### Covering layers -/

/-- Opaque pixels are always kept. -/
theorem Texel.thin_of_alpha_eq {texel : Texel} (h : texel.alpha = 255) (random : UInt8) :
    texel.thin random = texel := by
  cases texel with
  | color pixel =>
    obtain ⟨color, alpha⟩ := pixel
    obtain rfl : alpha = 255 := h
    exact congrArg (fun alpha => Texel.color ⟨color, alpha⟩) (Dissolve.keep_full random)
  | level v => rfl
  | levelAlpha v alpha =>
    obtain rfl : alpha = 255 := h
    exact congrArg (Texel.levelAlpha v) (Dissolve.keep_full random)

namespace Layer

/-- Where an opaque layer without a mask lies over the canvas, its own pixel lands, also where the
layer is thinned out. -/
theorem WellShaped.exists_landing_solid {layer : Layer} (h : layer.WellShaped)
    (hsolid : layer.Solid) (hunmasked : layer.maskApplies = false) {x y : Nat}
    (hover : layer.LiesOver x y) :
    ∃ texel, layer.tiles.texelAt? (layer.columnAt x) (layer.rowAt y) = some texel ∧
      layer.dissolved.landing? x y = some ⟨texel, none⟩ := by
  obtain ⟨texel, htexel, hsample⟩ := h.exists_sample hover.columnAt_lt hover.rowAt_lt
  -- No mask applies, and an opaque pixel is not thinned out.
  have hmask : layer.maskAt? (layer.columnAt x) (layer.rowAt y) = none := by
    rw [maskAt?, hunmasked, if_neg Bool.false_ne_true]
  have hkept : layer.thinAt (layer.columnAt x) (layer.rowAt y) ⟨texel, none⟩ = ⟨texel, none⟩ := by
    unfold thinAt
    split
    · rw [Texel.thin_of_alpha_eq (hsolid.alpha_eq htexel)]
    · rfl
  refine ⟨texel, htexel, ?_⟩
  rw [h.landing?_dissolved, landing?, if_pos hover, hsample, hmask, Option.map_some, hkept]

/-- A layer that covers a canvas of the given size with opaque pixels. -/
structure Covering (layer : Layer) (width height : Nat) : Prop where
  shaped : layer.WellShaped
  not_indexed : layer.kind.isIndexed = false
  /-- Levels without alpha need not be looked at. -/
  solid : layer.kind ≠ .gray → layer.Solid
  opacity : layer.props.opacity = 255
  unmasked : layer.maskApplies = false
  /-- The mode, found by its id, changes the alpha below. -/
  mode : ∃ id, LayerMode.ofId? id = some layer.props.mode ∧
    (id = 0 ∨ id = 1 ∨ id = 2 ∨ id = 28)
  liesOver : ∀ x < width, ∀ y < height, layer.LiesOver x y

namespace Covering

variable {layer : Layer} {width height : Nat} (h : layer.Covering width height)
include h

theorem affectsAlpha : layer.props.mode.affectsAlpha = true := by
  obtain ⟨id, hmode, hid⟩ := h.mode
  exact (LayerMode.affectsAlpha_iff hmode).mpr hid

theorem isPlain : layer.props.mode.blend.isPlain = true := by
  obtain ⟨id, hmode, -⟩ := h.mode
  exact LayerMode.isPlain_of_affectsAlpha hmode h.affectsAlpha

/-- All pixels of a covering layer are opaque, levels without alpha included. -/
theorem all_solid : layer.Solid := by
  by_cases hkind : layer.kind = .gray
  · exact h.shaped.solid_of_gray hkind
  · exact h.solid hkind

/-- Everywhere on the canvas there is a pixel of the layer, opaque and not masked, also where the
layer is thinned out. -/
theorem exists_landing {x y : Nat} (hx : x < width) (hy : y < height) :
    ∃ texel, layer.tiles.texelAt? (layer.columnAt x) (layer.rowAt y) = some texel ∧
      layer.dissolved.landing? x y = some ⟨texel, none⟩ :=
  h.shaped.exists_landing_solid h.all_solid h.unmasked (h.liesOver x hx y hy)

/-- **Nothing is left** of a pixel under an opaque one. -/
theorem mergedPixel_eq {texel : Texel} (hstored : texel.OfKind layer.kind)
    (halpha : texel.alpha = 255) (palette : Palette) (hasAlpha : Bool) (below : Pixel) :
    layer.mergedPixel palette hasAlpha ⟨texel, none⟩ below = texel.plainColor.solid := by
  -- Nothing weakens the alpha, which remains 255.
  have hfull : UInt8.ofNat (layer.alphaOf ⟨texel, none⟩ 255) = 255 := by
    rw [alphaOf, h.opacity]
    rfl
  have hwrite (color : Rgb) : Canvas.writePixel hasAlpha color.solid = color.solid := ite_self _
  unfold mergedPixel
  rw [h.not_indexed, if_neg Bool.false_ne_true]
  dsimp only
  rw [halpha, if_neg (by decide)]
  -- A gray layer merges its level and any other its colour; either replaces what is below.
  split
  · next hgray =>
    unfold mergedGray
    dsimp only
    rw [BlendMode.mixesGray_of_isPlain h.isPlain, if_neg Bool.false_ne_true, halpha, hfull,
      BlendMode.blendGray_of_isPlain h.isPlain, solid_overAlpha, mix_all, h.affectsAlpha,
      if_pos rfl, hstored.gray_value hgray]
    exact hwrite _
  · unfold mergedColor
    dsimp only
    rw [BlendMode.mixesColor_of_isPlain h.isPlain, if_neg Bool.false_ne_true, halpha, hfull,
      BlendMode.blendColor_of_isPlain h.isPlain, h.affectsAlpha, overPixel_solid,
      colorOf_of_not_isIndexed h.not_indexed]
    exact hwrite _

end Covering

end Layer

/-! ### Canvases and stacks -/

namespace Canvas

/-- A canvas of colours, of the given format and size. -/
structure HoldsColors (canvas : Canvas) (hasAlpha : Bool) (width height : Nat) : Prop where
  format_eq : canvas.format = .color hasAlpha
  width_eq : canvas.width = width
  height_eq : canvas.height = height

variable {canvas other : Canvas} {hasAlpha : Bool} {width height : Nat}

/-- A canvas that holds colours is a raster of pixels of its size. -/
theorem HoldsColors.eq_color (h : canvas.HoldsColors hasAlpha width height) :
    ∃ cells, canvas = color hasAlpha cells ∧ cells.width = width ∧ cells.height = height := by
  obtain ⟨hformat, hwidth, hheight⟩ := h
  cases canvas with
  | indexed format entries cells => cases hformat
  | color hasAlpha' cells =>
    cases hformat
    exact ⟨cells, rfl, hwidth, hheight⟩

/-- Merging a layer keeps what kind of canvas it is. -/
theorem HoldsColors.mergeDown (h : canvas.HoldsColors hasAlpha width height) (layer : Layer)
    (palette : Palette) : (canvas.mergeDown layer palette).HoldsColors hasAlpha width height where
  format_eq := (mergeDown_format canvas layer palette).trans h.format_eq
  width_eq := (mergeDown_width canvas layer palette).trans h.width_eq
  height_eq := (mergeDown_height canvas layer palette).trans h.height_eq

/-- Canvases of colours that show the same are the same. -/
theorem HoldsColors.ext (h : canvas.HoldsColors hasAlpha width height)
    (h' : other.HoldsColors hasAlpha width height)
    (hsame : ∀ x < width, ∀ y < height, canvas.colorAt? x y = other.colorAt? x y) :
    canvas = other := by
  obtain ⟨cells, rfl, rfl, rfl⟩ := h.eq_color
  obtain ⟨cells', rfl, hwidth, hheight⟩ := h'.eq_color
  exact congrArg (color hasAlpha) (Raster.ext_get? hwidth.symm hheight.symm hsame)

variable {layer : Layer} {palette : Palette}

/-- A covering layer shows its own colours, on any canvas of colours. -/
theorem exists_colorAt?_mergeDown_covering (h : layer.Covering width height) (palette : Palette)
    {x y : Nat} (hx : x < width) (hy : y < height) :
    ∃ texel, layer.tiles.texelAt? (layer.columnAt x) (layer.rowAt y) = some texel ∧
      ∀ {canvas : Canvas} {hasAlpha : Bool}, canvas.HoldsColors hasAlpha width height →
        (canvas.mergeDown layer palette).colorAt? x y = some texel.plainColor.solid := by
  obtain ⟨texel, htexel, hlands⟩ := h.exists_landing hx hy
  refine ⟨texel, htexel, fun hcanvas => ?_⟩
  obtain ⟨cells, rfl, rfl, rfl⟩ := hcanvas.eq_color
  obtain ⟨below, hbelow⟩ := cells.exists_get? hx hy
  -- A layer of full opacity is not passed over.
  have hopacity : layer.props.opacity ≠ 0 := by
    rw [h.opacity]
    decide
  rw [colorAt?_mergeDown_color h.shaped hopacity hlands palette _ hx hy hbelow,
    h.mergedPixel_eq (h.shaped.covers.ofKind htexel) (h.all_solid.alpha_eq htexel)]

/-- What a stack is flattened to is as large as it is asked for. -/
theorem size_flatten? {layers : List Layer}
    (h : flatten? width height palette layers = some canvas) :
    canvas.width = width ∧ canvas.height = height := by
  cases layers with
  | nil => cases h
  | cons bottom above =>
    obtain ⟨start, hstart, rfl⟩ := Option.map_eq_some_iff.mp h
    obtain ⟨-, hwidth, hheight⟩ := sound_forBase? hstart
    rw [mergeAll_width, paintBase_width, mergeAll_height, paintBase_height]
    exact ⟨hwidth, hheight⟩

/-- A layer and others above it are composited onto what is below. -/
theorem flatten?_append_cons {lower : List Layer} (above : List Layer)
    (h : flatten? width height palette lower = some canvas) :
    flatten? width height palette (lower ++ layer :: above) =
      some ((canvas.mergeDown layer palette).mergeAll palette above) := by
  have hlower : lower ≠ [] := by
    rintro rfl
    cases h
  rw [flatten?_append palette lower _ width height hlower, h]
  rfl

/-- **Covering layers.** Take a layer of colours or gray levels, with or without alpha, whose pixels
are all opaque, of full opacity and without a mask that applies, in one of the modes that change the
alpha below, and placed so that it lies over the whole canvas. Composited onto any two canvases of
colours of the same format and size it makes them equal, and shows its own colour at full alpha
everywhere. So two stacks show the same from such a layer on if the canvases below it have the same
format. -/
theorem mergeDown_covering (h : layer.Covering width height) (palette : Palette) (hasAlpha : Bool) :
    (∀ canvas other : Canvas, canvas.HoldsColors hasAlpha width height →
        other.HoldsColors hasAlpha width height →
      canvas.mergeDown layer palette = other.mergeDown layer palette ∧
        ∀ x < width, ∀ y < height, ∃ texel,
          layer.tiles.texelAt? (layer.columnAt x) (layer.rowAt y) = some texel ∧
          (canvas.mergeDown layer palette).colorAt? x y = some texel.plainColor.solid) ∧
      ∀ (lower lower' above : List Layer) (below below' : Canvas),
        flatten? width height palette lower = some below →
        flatten? width height palette lower' = some below' →
        below.format = .color hasAlpha → below'.format = .color hasAlpha →
        flatten? width height palette (lower ++ layer :: above) =
          flatten? width height palette (lower' ++ layer :: above) := by
  -- The canvases agree because they agree at every position.
  have hequal : ∀ canvas other : Canvas, canvas.HoldsColors hasAlpha width height →
      other.HoldsColors hasAlpha width height →
      canvas.mergeDown layer palette = other.mergeDown layer palette := by
    intro canvas other hcanvas hother
    refine (hcanvas.mergeDown layer palette).ext (hother.mergeDown layer palette) ?_
    intro x hx y hy
    obtain ⟨texel, -, hshows⟩ := exists_colorAt?_mergeDown_covering h palette hx hy
    rw [hshows hcanvas, hshows hother]
  constructor
  · intro canvas other hcanvas hother
    refine ⟨hequal canvas other hcanvas hother, fun x hx y hy => ?_⟩
    obtain ⟨texel, htexel, hshows⟩ := exists_colorAt?_mergeDown_covering h palette hx hy
    exact ⟨texel, htexel, hshows hcanvas⟩
  · intro lower lower' above below below' hbelow hbelow' hformat hformat'
    -- Whatever lies below, the layer makes the same canvas of it, and the layers above go on from
    -- there.
    obtain ⟨hwidth, hheight⟩ := size_flatten? hbelow
    obtain ⟨hwidth', hheight'⟩ := size_flatten? hbelow'
    rw [flatten?_append_cons above hbelow, flatten?_append_cons above hbelow',
      hequal below below' ⟨hformat, hwidth, hheight⟩ ⟨hformat', hwidth', hheight'⟩]

/-- A layer in dissolve mode of three opaque pixels, the first of them left of the canvas. -/
def coveringLayer : Layer where
  width := 3
  height := 1
  kind := .rgba
  props := { xOffset := -1, mode := ⟨1, .dissolve, true⟩ }
  tiles := ⟨1, 1, #[⟨3, 1, .color #[⟨⟨1, 2, 3⟩, 255⟩, ⟨⟨4, 5, 6⟩, 255⟩, ⟨⟨7, 8, 9⟩, 255⟩]⟩]⟩
  mask := none

/-- A clear canvas and a white one look the same under it. -/
theorem mergeDown_coveringLayer :
    coveringLayer.Covering 2 1 ∧
      (filledColor 2 1 true Pixel.clear).mergeDown coveringLayer #[] =
        (filledColor 2 1 true Pixel.white).mergeDown coveringLayer #[] ∧
      ((filledColor 2 1 true Pixel.clear).mergeDown coveringLayer #[]).colorAt? 1 0 =
        some ⟨⟨7, 8, 9⟩, 255⟩ := by
  have hcovering : coveringLayer.Covering 2 1 :=
    { shaped := by decide
      not_indexed := rfl
      solid := fun _ => by decide
      opacity := rfl
      unmasked := rfl
      mode := ⟨1, rfl, Or.inr (Or.inl rfl)⟩
      liesOver := by decide }
  have hclear : (filledColor 2 1 true Pixel.clear).HoldsColors true 2 1 := ⟨rfl, rfl, rfl⟩
  have hwhite : (filledColor 2 1 true Pixel.white).HoldsColors true 2 1 := ⟨rfl, rfl, rfl⟩
  obtain ⟨hequal, hshows⟩ := (mergeDown_covering hcovering #[] true).1 _ _ hclear hwhite
  obtain ⟨texel, htexel, hcolor⟩ := hshows 1 (by decide) 0 (by decide)
  -- The last pixel of the layer is the one that shows.
  have hlast : texel = .color ⟨⟨7, 8, 9⟩, 255⟩ :=
    Option.some.inj (htexel.symm.trans (by decide))
  rw [hlast] at hcolor
  exact ⟨hcovering, hequal, hcolor⟩

end Canvas

end XcfFlatten
