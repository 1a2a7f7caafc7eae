import XcfFlatten.Proofs.Dissolve.Position

/-!
# Compositing cell by cell

Compositing a layer is the same thing as compositing each of its pixels, as a layer of one pixel,
onto the cell it falls on, as a canvas of one cell (`Canvas.cellAt?_composited`). Tiles, offsets and
clipping are gone from the right side.

The pixel of a dissolved layer is compared after the dissolve step at its own position: taken for
itself it would be dissolved as the first pixel of a layer, so it is composited in the mode without
the step (`LayerMode.settled`).
-/

namespace XcfFlatten

/-! ### Modes without the dissolve step -/

/-- The mode that composites as this one does, but does not thin the layer out. -/
def LayerMode.settled (mode : LayerMode) : LayerMode :=
  if mode.isDissolve then { mode with blend := .normal } else mode

namespace LayerMode

variable (mode : LayerMode)

@[simp] theorem settled_isDissolve : mode.settled.isDissolve = false := by
  unfold settled
  by_cases h : mode.isDissolve = true
  · rw [if_pos h]
    rfl
  · rw [if_neg h]
    exact Bool.eq_false_iff.mpr h

/-- A property of the blend mode that does not tell dissolving from the normal mode survives
settling. -/
theorem settled_blend {α : Type} (f : BlendMode → α) (hf : f .dissolve = f .normal) :
    f mode.settled.blend = f mode.blend := by
  unfold settled
  by_cases h : mode.isDissolve = true
  · have hblend : mode.blend = .dissolve := of_decide_eq_true h
    rw [if_pos h, hblend, hf]
  · rw [if_neg h]

@[simp] theorem settled_blendGray : mode.settled.blend.blendGray = mode.blend.blendGray :=
  mode.settled_blend BlendMode.blendGray rfl

@[simp] theorem settled_blendColor : mode.settled.blend.blendColor = mode.blend.blendColor :=
  mode.settled_blend BlendMode.blendColor rfl

@[simp] theorem settled_mixesGray : mode.settled.blend.mixesGray = mode.blend.mixesGray :=
  mode.settled_blend BlendMode.mixesGray rfl

@[simp] theorem settled_mixesColor : mode.settled.blend.mixesColor = mode.blend.mixesColor :=
  mode.settled_blend BlendMode.mixesColor rfl

@[simp] theorem settled_affectsAlpha : mode.settled.affectsAlpha = mode.affectsAlpha := by
  unfold settled
  by_cases h : mode.isDissolve = true
  · rw [if_pos h]
  · rw [if_neg h]

end LayerMode

/-! ### Rules -/

/-- Two layers have the same rules if they agree on all that a rule reads of a layer beside the
sample. -/
structure Layer.SameRules (a b : Layer) : Prop where
  kind : a.kind = b.kind
  opacity : a.props.opacity = b.props.opacity
  blendGray : a.props.mode.blend.blendGray = b.props.mode.blend.blendGray
  blendColor : a.props.mode.blend.blendColor = b.props.mode.blend.blendColor
  mixesGray : a.props.mode.blend.mixesGray = b.props.mode.blend.mixesGray
  mixesColor : a.props.mode.blend.mixesColor = b.props.mode.blend.mixesColor
  affectsAlpha : a.props.mode.affectsAlpha = b.props.mode.affectsAlpha

namespace Layer.SameRules

variable {a b : Layer} (h : a.SameRules b)
include h

/-- Layers of the same rules weaken an alpha alike. -/
theorem alphaOf : a.alphaOf = b.alphaOf := by
  funext sample alpha
  unfold Layer.alphaOf
  rw [h.opacity]

theorem colorOf (palette : Palette) : a.colorOf palette = b.colorOf palette := by
  funext sample
  unfold Layer.colorOf
  rw [h.kind]

theorem baseIndex (entries : Array Pixel) : a.baseIndex entries = b.baseIndex entries := by
  funext sample below
  unfold Layer.baseIndex
  rw [h.kind, h.alphaOf]

theorem basePixel (palette : Palette) (hasAlpha : Bool) :
    a.basePixel palette hasAlpha = b.basePixel palette hasAlpha := by
  funext sample below
  unfold Layer.basePixel
  rw [h.kind, h.alphaOf, h.colorOf]

theorem mergedIndex (entries : Array Pixel) : a.mergedIndex entries = b.mergedIndex entries := by
  funext sample below
  unfold Layer.mergedIndex
  rw [h.kind, h.alphaOf, h.blendGray]

theorem mergedGray : a.mergedGray = b.mergedGray := by
  funext sample below
  unfold Layer.mergedGray
  dsimp only
  rw [h.alphaOf, h.blendGray, h.mixesGray, h.affectsAlpha]

theorem mergedColor (palette : Palette) : a.mergedColor palette = b.mergedColor palette := by
  funext sample below
  unfold Layer.mergedColor
  dsimp only
  rw [h.alphaOf, h.colorOf, h.blendColor, h.mixesColor, h.affectsAlpha]

theorem mergedPixel (palette : Palette) (hasAlpha : Bool) :
    a.mergedPixel palette hasAlpha = b.mergedPixel palette hasAlpha := by
  funext sample below
  unfold Layer.mergedPixel
  rw [h.kind, h.alphaOf, h.mergedGray, h.mergedColor]

end Layer.SameRules

/-- Thinning out a layer leaves its rules as they are. -/
theorem Layer.sameRules_dissolved (layer : Layer) : layer.dissolved.SameRules layer := by
  constructor
  case kind => exact dissolved_kind
  all_goals rw [dissolved_props]

/-! ### Layers of one pixel -/

/-- The tile of one pixel. -/
def Texel.tile : Texel → Tile
  | color pixel => ⟨1, 1, .color #[pixel]⟩
  | level v => ⟨1, 1, .level #[v]⟩
  | levelAlpha v a => ⟨1, 1, .levelAlpha #[v] #[a]⟩

/-- The grid of one tile of one pixel. -/
def Texel.grid (texel : Texel) : TileGrid Tile := ⟨1, 1, #[texel.tile]⟩

/-- The mask of one value. -/
def Mask.ofValue (mask : Mask) (value : UInt8) : Mask :=
  { mask with width := 1, height := 1, tiles := (Texel.level value).grid }

/-- A pixel at a position of a layer, and the mask's value there, as a layer of their own that is
placed at the corner of the canvas and composited like the whole layer. Of a layer that is thinned
out it is the pixel after that step. -/
def Layer.ofTexel (layer : Layer) (x y : Nat) (texel : Texel) : Layer where
  width := 1
  height := 1
  kind := layer.kind
  props :=
    { layer.props with
      xOffset := 0
      yOffset := 0
      mode := if layer.thinsOut then layer.props.mode.settled else layer.props.mode }
  tiles := (if layer.thinsOut then texel.thin (Dissolve.noise x y) else texel).grid
  mask := layer.mask.bind fun mask => (mask.valueAt? x y).map mask.ofValue

/-- The pixel stored at a position of a layer as a layer of its own. -/
def Layer.pixelAt? (layer : Layer) (x y : Nat) : Option Layer :=
  (layer.tiles.texelAt? x y).map (layer.ofTexel x y)

namespace Texel

/-- A pixel is stored the way a kind stores its pixels. -/
def OfKind (kind : LayerKind) : Texel → Prop
  | color _ => kind = .rgb ∨ kind = .rgba
  | level _ => kind = .gray ∨ kind = .indexed
  | levelAlpha _ _ => kind = .grayAlpha ∨ kind = .indexedAlpha

theorem ofKind_thin {kind : LayerKind} {texel : Texel} (random : UInt8) (h : texel.OfKind kind) :
    (texel.thin random).OfKind kind := by
  cases texel <;> exact h

@[simp] theorem texelAt?_grid (texel : Texel) : texel.grid.texelAt? 0 0 = some texel := by
  cases texel <;> rfl

/-- The grid of one texel covers one pixel. -/
theorem covers_grid {kind : LayerKind} {texel : Texel} (h : texel.OfKind kind) :
    texel.grid.Covers 1 1 kind := by
  -- There is one place in the grid, and the one tile is there.
  have htile : ∀ {row column tile}, texel.grid.get? row column = some tile →
      row = 0 ∧ column = 0 ∧ tile = texel.tile := by
    intro row column tile hget
    unfold TileGrid.get? grid at hget
    split at hget
    · next hin =>
      dsimp only at hin
      obtain ⟨rfl, rfl⟩ : row = 0 ∧ column = 0 := by omega
      exact ⟨rfl, rfl, (Option.some.inj hget).symm⟩
    · cases hget
  refine ⟨rfl, rfl, rfl, ?_, ?_, ?_⟩
  all_goals
    intro row column tile hget
    obtain ⟨rfl, rfl, rfl⟩ := htile hget
    cases texel
  all_goals first | rfl | exact ⟨h, rfl⟩ | exact ⟨h, rfl, rfl⟩

end Texel

/-- The texels of a complete tile are of its kind. -/
theorem Tile.ofKind_of_texel? {tile : Tile} {kind : LayerKind} {size i : Nat} {texel : Texel}
    (h : tile.pixels.Complete kind size) (htexel : tile.texel? i = some texel) :
    texel.OfKind kind := by
  obtain ⟨w, t, pixels⟩ := tile
  -- The channels that a texel is read from fix its kind.
  cases pixels with
  | color pixels =>
    obtain ⟨pixel, -, rfl⟩ := Option.map_eq_some_iff.mp htexel
    exact h.1
  | level levels =>
    obtain ⟨v, -, rfl⟩ := Option.map_eq_some_iff.mp htexel
    exact h.1
  | levelAlpha levels alphas =>
    unfold texel? at htexel
    dsimp only at htexel
    split at htexel
    · cases htexel
      exact h.1
    · cases htexel

/-- The texels of a raster are of its kind. -/
theorem TileGrid.Covers.ofKind {grid : TileGrid Tile} {width height x y : Nat} {kind : LayerKind}
    {texel : Texel} (h : grid.Covers width height kind) (htexel : grid.texelAt? x y = some texel) :
    texel.OfKind kind := by
  obtain ⟨tile, htile, htexel⟩ := Option.bind_eq_some_iff.mp htexel
  exact Tile.ofKind_of_texel? (h.complete htile) htexel

namespace Layer

variable {layer : Layer}

/-- The mask of a well-shaped layer has a value at each of its pixels. -/
theorem WellShaped.exists_valueAt (h : layer.WellShaped) {mask : Mask}
    (hmask : layer.mask = some mask) {x y : Nat} (hx : x < layer.width) (hy : y < layer.height) :
    ∃ value, mask.valueAt? x y = some value := by
  obtain ⟨texel, htexel⟩ := (h.mask_covers mask hmask).exists_texel hx hy
  exact ⟨texel.value, by rw [Mask.valueAt?, htexel, Option.map_some]⟩

theorem wellShaped_ofTexel {texel : Texel} (h : texel.OfKind layer.kind) (x y : Nat) :
    (layer.ofTexel x y texel).WellShaped := by
  refine ⟨Texel.covers_grid ?_, fun mask hmask => ?_⟩
  · change (if layer.thinsOut then texel.thin (Dissolve.noise x y) else texel).OfKind layer.kind
    split
    · exact Texel.ofKind_thin _ h
    · exact h
  · obtain ⟨mask, -, hmask⟩ := Option.bind_eq_some_iff.mp hmask
    obtain ⟨value, -, rfl⟩ := Option.map_eq_some_iff.mp hmask
    exact Texel.covers_grid (Or.inl rfl)

/-- The layer of one pixel has been thinned out already, if at all. -/
theorem thinsOut_ofTexel (layer : Layer) (x y : Nat) (texel : Texel) :
    (layer.ofTexel x y texel).thinsOut = false := by
  by_cases h : layer.thinsOut = true
  · have hmode : (layer.ofTexel x y texel).props.mode = layer.props.mode.settled := if_pos h
    rw [thinsOut, hmode, LayerMode.settled_isDissolve, Bool.false_and]
  · have hmode : (layer.ofTexel x y texel).props.mode = layer.props.mode := if_neg h
    rw [thinsOut, hmode]
    exact Bool.eq_false_iff.mpr h

/-- The layer of one pixel has the rules of the whole layer. -/
theorem sameRules_ofTexel (layer : Layer) (x y : Nat) (texel : Texel) :
    (layer.ofTexel x y texel).SameRules layer := by
  -- Settling changes the blend mode, but nothing that a rule asks of it.
  by_cases h : layer.thinsOut = true
  · have hmode : (layer.ofTexel x y texel).props.mode = layer.props.mode.settled := if_pos h
    constructor
    case kind | opacity => rfl
    all_goals rw [hmode]
    case blendGray => exact LayerMode.settled_blendGray _
    case blendColor => exact LayerMode.settled_blendColor _
    case mixesGray => exact LayerMode.settled_mixesGray _
    case mixesColor => exact LayerMode.settled_mixesColor _
    case affectsAlpha => exact LayerMode.settled_affectsAlpha _
  · have hmode : (layer.ofTexel x y texel).props.mode = layer.props.mode := if_neg h
    constructor
    case kind | opacity => rfl
    all_goals rw [hmode]

/-- The mask of the layer of one pixel applies, and has a value, just as the mask of the whole
layer. -/
theorem WellShaped.maskAt?_ofTexel (h : layer.WellShaped) {x y : Nat} (hx : x < layer.width)
    (hy : y < layer.height) (texel : Texel) :
    (layer.ofTexel x y texel).maskAt? 0 0 = layer.maskAt? x y := by
  -- Whether a mask applies depends on the flag and on there being a mask, and the pixel keeps both.
  cases hm : layer.mask with
  | none =>
    have hpixel : (layer.ofTexel x y texel).mask = none := by
      change (layer.mask.bind _) = none
      rw [hm]
      rfl
    unfold maskAt?
    rw [hm, hpixel]
    simp only [Option.bind_none, ite_self]
  | some mask =>
    obtain ⟨value, hvalue⟩ := h.exists_valueAt hm hx hy
    have hpixel : (layer.ofTexel x y texel).mask = some (mask.ofValue value) := by
      change (layer.mask.bind _) = _
      rw [hm, Option.bind_some, hvalue, Option.map_some]
    have happlies : (layer.ofTexel x y texel).maskApplies = layer.maskApplies := by
      unfold maskApplies
      rw [hpixel, hm]
      rfl
    unfold maskAt?
    rw [happlies, hm, hpixel, Option.bind_some, Option.bind_some, hvalue]
    rfl

/-- **The pixel at a position.** There is one at every position of a well-shaped layer. It is a
well-shaped layer of its own with the same rules, it is not thinned out any more, and at the corner
of the canvas it shows what the layer, thinned out where that is due, shows at the position. -/
theorem WellShaped.exists_pixel (h : layer.WellShaped) {x y : Nat} (hx : x < layer.width)
    (hy : y < layer.height) :
    ∃ pixel, layer.pixelAt? x y = some pixel ∧ pixel.WellShaped ∧ pixel.SameRules layer ∧
      pixel.thinsOut = false ∧
      pixel.landing? 0 0 = (layer.sampleAt? x y).map (layer.thinAt x y) := by
  obtain ⟨texel, htexel, hsample⟩ := h.exists_sample hx hy
  have hshaped := wellShaped_ofTexel (h.covers.ofKind htexel) x y
  refine ⟨layer.ofTexel x y texel, by rw [pixelAt?, htexel, Option.map_some], hshaped,
    sameRules_ofTexel layer x y texel, thinsOut_ofTexel layer x y texel, ?_⟩
  -- At the corner of the canvas lies the layer's only pixel, thinned out already where that is due.
  have hover : (layer.ofTexel x y texel).LiesOver 0 0 :=
    ⟨⟨Int.le_refl 0, Int.zero_lt_one⟩, Int.le_refl 0, Int.zero_lt_one⟩
  have hat : (layer.ofTexel x y texel).tiles.texelAt? 0 0 =
      some (if layer.thinsOut then texel.thin (Dissolve.noise x y) else texel) :=
        Texel.texelAt?_grid _
  rw [landing?, if_pos hover, hsample, Option.map_some,
    hshaped.sampleAt?_eq hover.columnAt_lt hover.rowAt_lt]
  change ((layer.ofTexel x y texel).tiles.texelAt? 0 0).map
    (fun texel' => (⟨texel', (layer.ofTexel x y texel).maskAt? 0 0⟩ : Sample)) = _
  rw [hat, h.maskAt?_ofTexel hx hy, Option.map_some]
  unfold thinAt
  split
  · rfl
  · rfl

end Layer

/-! ### Rasters of one cell -/

namespace Raster

variable {α : Type}

theorem eq_filled_of_get? {r : Raster α} {a : α} (hwidth : r.width = 1) (hheight : r.height = 1)
    (h : r.get? 0 0 = some a) : r = filled 1 1 a := by
  refine ext_get? hwidth hheight fun x hx y hy => ?_
  obtain ⟨rfl, rfl⟩ : x = 0 ∧ y = 0 := by omega
  exact h

/-- **Painting one cell.** A well-shaped layer makes of the only cell what the sample that lands
there makes of it. -/
theorem paint_filled {layer : Layer} (h : layer.WellShaped) (rule : Sample → α → α) (a : α) :
    (filled 1 1 a).paint layer rule =
      filled 1 1 ((layer.landing? 0 0).elim a fun s => rule s a) := by
  refine eq_filled_of_get? (paint_width _ _ _) (paint_height _ _ _) ?_
  rw [get?_paint h rule _ Nat.one_pos Nat.one_pos, get?_filled Nat.one_pos Nat.one_pos,
    Option.map_some]

/-- What a layer leaves in a cell that it lies over, its pixel there leaves in that cell alone. -/
theorem get?_paint_dissolved {layer pixel : Layer} (h : layer.WellShaped)
    (hpixel : pixel.WellShaped) (hsettled : pixel.thinsOut = false) (rule : Sample → α → α)
    {r : Raster α} {x y : Nat} {a : α} (hx : x < r.width) (hy : y < r.height)
    (ha : r.get? x y = some a) (hover : layer.LiesOver x y)
    (hlands : pixel.landing? 0 0 = (layer.sampleAt? (layer.columnAt x) (layer.rowAt y)).map
      (layer.thinAt (layer.columnAt x) (layer.rowAt y))) :
    ((r.paint layer.dissolved rule).get? x y).map (filled 1 1) =
      some ((filled 1 1 a).paint pixel.dissolved rule) := by
  -- The same sample lands on both canvases, so the rule is applied alike.
  have hlanding : layer.dissolved.landing? x y = pixel.dissolved.landing? 0 0 := by
    rw [h.landing?_dissolved, Layer.landing?, if_pos hover,
      Layer.dissolved_of_not_thinsOut hsettled, hlands]
  rw [get?_paint h.dissolved rule r hx hy, ha, hlanding, paint_filled hpixel.dissolved]
  rfl

end Raster

namespace Canvas

variable {layer : Layer}

/-! ### Both ways of compositing as one -/

/-- Changes every cell that the layer, thinned out where that is due, falls on. The rule depends on
what the canvas holds. -/
def repaint (canvas : Canvas) (layer : Layer) (indexRule : Array Pixel → Sample → UInt8 → UInt8)
    (pixelRule : Bool → Sample → Pixel → Pixel) : Canvas :=
  match canvas with
  | indexed format entries cells =>
    indexed format entries (cells.paint layer.dissolved (indexRule entries))
  | color hasAlpha cells => color hasAlpha (cells.paint layer.dissolved (pixelRule hasAlpha))

/-- The lowest layer repaints the canvas by its base rules. -/
theorem paintBase_eq (canvas : Canvas) (layer : Layer) (palette : Palette) :
    canvas.paintBase layer palette =
      canvas.repaint layer layer.baseIndex (layer.basePixel palette) := by
  -- Thinning out changes pixels, not the rules they follow.
  have hrules := Layer.sameRules_dissolved layer
  cases canvas with
  | indexed format entries cells => rw [paintBase, repaint, hrules.baseIndex]
  | color hasAlpha cells => rw [paintBase, repaint, hrules.basePixel]

/-- A layer that is not passed over repaints the canvas by its merging rules. -/
theorem mergeDown_eq (canvas : Canvas) (layer : Layer) (palette : Palette) :
    canvas.mergeDown layer palette =
      if layer.props.opacity = 0 || !canvas.accepts layer.kind then canvas
      else canvas.repaint layer layer.mergedIndex (layer.mergedPixel palette) := by
  have hrules := Layer.sameRules_dissolved layer
  unfold mergeDown
  congr 1
  cases canvas with
  | indexed format entries cells =>
    dsimp only
    rw [repaint, hrules.mergedIndex]
  | color hasAlpha cells =>
    dsimp only
    rw [repaint, hrules.mergedPixel]

section Frame

variable (canvas : Canvas) (layer : Layer) (palette : Palette)
  (indexRule : Array Pixel → Sample → UInt8 → UInt8)
  (pixelRule : Bool → Sample → Pixel → Pixel)

@[simp] theorem repaint_format :
    (canvas.repaint layer indexRule pixelRule).format = canvas.format := by
  cases canvas <;> rfl

@[simp] theorem repaint_palette :
    (canvas.repaint layer indexRule pixelRule).palette = canvas.palette := by
  cases canvas <;> rfl

/-- Repainting keeps the size of the canvas. -/
@[simp] theorem repaint_width :
    (canvas.repaint layer indexRule pixelRule).width = canvas.width := by
  cases canvas with
  | indexed format entries cells => exact Raster.paint_width _ _ _
  | color hasAlpha cells => exact Raster.paint_width _ _ _

@[simp] theorem repaint_height :
    (canvas.repaint layer indexRule pixelRule).height = canvas.height := by
  cases canvas with
  | indexed format entries cells => exact Raster.paint_height _ _ _
  | color hasAlpha cells => exact Raster.paint_height _ _ _

end Frame

/-! ### Canvases of one cell -/

/-- The cell at a position as a canvas of its own, of the same format and with the same palette. -/
def cellAt? (canvas : Canvas) (x y : Nat) : Option Canvas :=
  match canvas with
  | indexed format palette cells =>
    (cells.get? x y).map fun index => indexed format palette (Raster.filled 1 1 index)
  | color hasAlpha cells =>
    (cells.get? x y).map fun pixel => color hasAlpha (Raster.filled 1 1 pixel)

/-- At each position there is a cell, a canvas of the same format. -/
theorem exists_cellAt? (canvas : Canvas) {x y : Nat} (hx : x < canvas.width)
    (hy : y < canvas.height) :
    ∃ cell, canvas.cellAt? x y = some cell ∧ cell.format = canvas.format := by
  cases canvas with
  | indexed format entries cells =>
    obtain ⟨index, hindex⟩ := cells.exists_get? hx hy
    exact ⟨indexed format entries (Raster.filled 1 1 index),
      by rw [cellAt?, hindex, Option.map_some], rfl⟩
  | color hasAlpha cells =>
    obtain ⟨pixel, hpixel⟩ := cells.exists_get? hx hy
    exact ⟨color hasAlpha (Raster.filled 1 1 pixel), by rw [cellAt?, hpixel, Option.map_some], rfl⟩

/-- Repainting leaves alone what the layer does not lie over. -/
theorem cellAt?_repaint_of_not_liesOver (canvas : Canvas) (h : layer.WellShaped)
    (indexRule : Array Pixel → Sample → UInt8 → UInt8) (pixelRule : Bool → Sample → Pixel → Pixel)
    {x y : Nat} (hx : x < canvas.width) (hy : y < canvas.height) (hover : ¬ layer.LiesOver x y) :
    (canvas.repaint layer indexRule pixelRule).cellAt? x y = canvas.cellAt? x y := by
  have hnone : layer.dissolved.landing? x y = none := h.landing?_dissolved_eq_none hover
  -- No sample lands at the position, so that its cell is not changed.
  cases canvas with
  | indexed format entries cells =>
    rw [repaint, cellAt?, Raster.get?_paint h.dissolved _ _ hx hy, hnone, Option.map_map]
    rfl
  | color hasAlpha cells =>
    rw [repaint, cellAt?, Raster.get?_paint h.dissolved _ _ hx hy, hnone, Option.map_map]
    rfl

/-- A cell that the layer lies over is left as the layer's pixel there leaves it. -/
theorem cellAt?_repaint {canvas cell : Canvas} {pixel : Layer} (h : layer.WellShaped)
    (hpixel : pixel.WellShaped) (hsettled : pixel.thinsOut = false)
    (indexRule : Array Pixel → Sample → UInt8 → UInt8) (pixelRule : Bool → Sample → Pixel → Pixel)
    {x y : Nat} (hx : x < canvas.width) (hy : y < canvas.height)
    (hcell : canvas.cellAt? x y = some cell) (hover : layer.LiesOver x y)
    (hlands : pixel.landing? 0 0 = (layer.sampleAt? (layer.columnAt x) (layer.rowAt y)).map
      (layer.thinAt (layer.columnAt x) (layer.rowAt y))) :
    (canvas.repaint layer indexRule pixelRule).cellAt? x y =
      some (cell.repaint pixel indexRule pixelRule) := by
  -- Both kinds of canvas hold a raster, and what holds of its cells was shown for any raster.
  cases canvas with
  | indexed format entries cells =>
    obtain ⟨index, hindex, rfl⟩ := Option.map_eq_some_iff.mp hcell
    have hpaint := Raster.get?_paint_dissolved h hpixel hsettled (indexRule entries) hx hy
      hindex hover hlands
    obtain ⟨after, hafter, hone⟩ := Option.map_eq_some_iff.mp hpaint
    rw [repaint, cellAt?, hafter, Option.map_some, hone]
    rfl
  | color hasAlpha cells =>
    obtain ⟨below, hbelow, rfl⟩ := Option.map_eq_some_iff.mp hcell
    have hpaint := Raster.get?_paint_dissolved h hpixel hsettled (pixelRule hasAlpha) hx hy
      hbelow hover hlands
    obtain ⟨after, hafter, hone⟩ := Option.map_eq_some_iff.mp hpaint
    rw [repaint, cellAt?, hafter, Option.map_some, hone]
    rfl

/-- **Cell by cell.** Whether a layer is the lowest one or a further one, it leaves every cell of
the canvas that it does not lie over as it was. A cell that it lies over is left as the pixel of the
layer at that place leaves the canvas of that one cell, in the format and with the palette of the
whole canvas. The layer may be of any kind, mode and opacity, with or without a mask, and it may
reach over the canvas at every side or lie outside it. -/
theorem cellAt?_composited (canvas : Canvas) (palette : Palette) (h : layer.WellShaped) {x y : Nat}
    (hx : x < canvas.width) (hy : y < canvas.height) :
    ∃ cell, canvas.cellAt? x y = some cell ∧
      (¬ layer.LiesOver x y →
        (canvas.paintBase layer palette).cellAt? x y = some cell ∧
          (canvas.mergeDown layer palette).cellAt? x y = some cell) ∧
      (layer.LiesOver x y →
        ∃ pixel, layer.pixelAt? (layer.columnAt x) (layer.rowAt y) = some pixel ∧
        (canvas.paintBase layer palette).cellAt? x y = some (cell.paintBase pixel palette) ∧
          (canvas.mergeDown layer palette).cellAt? x y = some (cell.mergeDown pixel palette)) := by
  obtain ⟨cell, hcell, hformat⟩ := canvas.exists_cellAt? hx hy
  refine ⟨cell, hcell, fun hover => ⟨?_, ?_⟩, fun hover => ?_⟩
  · -- Beside the layer.
    rw [paintBase_eq, cellAt?_repaint_of_not_liesOver canvas h _ _ hx hy hover, hcell]
  · rw [mergeDown_eq]
    split
    · exact hcell
    · rw [cellAt?_repaint_of_not_liesOver canvas h _ _ hx hy hover, hcell]
  · -- Under the layer. The pixel there has the layer's rules and is accepted where the layer is.
    obtain ⟨pixel, hat, hpixel, hrules, hsettled, hlands⟩ :=
      h.exists_pixel hover.columnAt_lt hover.rowAt_lt
    refine ⟨pixel, hat, ?_, ?_⟩
    · have hbase : pixel.baseIndex = layer.baseIndex := funext hrules.baseIndex
      have hpixelRule : pixel.basePixel palette = layer.basePixel palette :=
        funext (hrules.basePixel palette)
      rw [paintBase_eq, paintBase_eq, hbase, hpixelRule,
        cellAt?_repaint h hpixel hsettled _ _ hx hy hcell hover hlands]
    · have hmerged : pixel.mergedIndex = layer.mergedIndex := funext hrules.mergedIndex
      have hpixelRule : pixel.mergedPixel palette = layer.mergedPixel palette :=
        funext (hrules.mergedPixel palette)
      have haccepts : cell.accepts pixel.kind = canvas.accepts layer.kind := by
        rw [accepts, accepts, hformat, hrules.kind]
      rw [mergeDown_eq, mergeDown_eq, hmerged, hpixelRule, haccepts, hrules.opacity]
      split
      · exact hcell
      · exact cellAt?_repaint h hpixel hsettled _ _ hx hy hcell hover hlands

/-- A masked layer in dissolve mode whose first tile lies left of every canvas. -/
def overhangingLayer : Layer where
  width := 65
  height := 1
  kind := .grayAlpha
  props := { opacity := 254, xOffset := -64, mode := ⟨1, .dissolve, true⟩, applyMask := .on }
  tiles := ⟨1, 2, #[⟨64, 1, .levelAlpha (Array.replicate 64 7) (Array.replicate 64 255)⟩,
    ⟨1, 1, .levelAlpha #[9] #[200]⟩]⟩
  mask := some
    { width := 65
      height := 1
      props := {}
      tiles := ⟨1, 2, #[⟨64, 1, .level (Array.replicate 64 0)⟩, ⟨1, 1, .level #[128]⟩]⟩ }

/-- The second tile of `overhangingLayer` is composited by itself. -/
theorem cellAt?_overhangingLayer :
    overhangingLayer.WellShaped ∧ overhangingLayer.LiesOver 0 0 ∧ ¬ overhangingLayer.LiesOver 1 0 ∧
      ∃ cell pixel, (filledColor 2 1 true Pixel.white).cellAt? 0 0 = some cell ∧
        overhangingLayer.pixelAt? 64 0 = some pixel ∧
        ((filledColor 2 1 true Pixel.white).mergeDown overhangingLayer #[]).cellAt? 0 0 =
          some (cell.mergeDown pixel #[]) := by
  have hshaped : overhangingLayer.WellShaped := by decide
  have hover : overhangingLayer.LiesOver 0 0 := by decide
  obtain ⟨cell, hcell, -, hon⟩ :=
    cellAt?_composited (filledColor 2 1 true Pixel.white) #[] hshaped (x := 0) (y := 0)
      Nat.two_pos Nat.one_pos
  -- The corner of the canvas lies under the last column of the layer.
  obtain ⟨pixel, hpixel, -, hmerged⟩ := hon hover
  exact ⟨hshaped, hover, by decide, cell, pixel, hcell, hpixel, hmerged⟩

end Canvas

end XcfFlatten
