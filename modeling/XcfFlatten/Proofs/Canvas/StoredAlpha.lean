import XcfFlatten.Proofs.Canvas.Cover

/-!
# Stacks on an opaque layer

A lowest layer that covers the canvas with opaque pixels may store their alpha or not. That decides
what the canvas stores: a layer without alpha asks for a canvas without alpha, where whatever is
written comes out opaque, and a layer with alpha for one where an alpha is worked out for every
pixel. The two show the same picture under any further layers (`Canvas.flatten?_withAlpha`).

What is kept along the stack is that both canvases hold the same cells (`Canvas.withAlpha`) and that
all of these are opaque (`Canvas.Sound`). Nothing that a layer leaves of an opaque pixel is less than
opaque (`Layer.mergedPixel_withAlpha`), so there is nothing that a canvas without alpha would have to
put right.

* `Canvas.Sound.mergeDown_withAlpha` and `Canvas.Sound.mergeAll_withAlpha` — further layers;
* `Canvas.paintBase_withAlpha` — the lowest layer.
-/

namespace XcfFlatten

/-! ### Painting with two rules -/

namespace Raster.All

variable {α : Type} {P : α → Prop} {r : Raster α}

/-- Changes that agree on all that a raster holds change it alike. -/
theorem modify_congr (h : r.All P) {f g : α → α} (hfg : ∀ a, P a → f a = g a) (x y : Nat) :
    r.modify x y f = r.modify x y g := by
  have hcells : r.cells.modify (r.offset x y) f = r.cells.modify (r.offset x y) g := by
    refine Array.ext_getElem? fun i => ?_
    rw [Array.getElem?_modify, Array.getElem?_modify]
    cases hi : r.cells[i]? with
    | none => rfl
    | some a => rw [Option.map_some, Option.map_some, hfg a (h a (Array.mem_of_getElem? hi))]
  unfold Raster.modify
  congr 1

/-- Two rules paint the same if they agree on the cells there are and leave only such cells. -/
theorem paint_congr {rule rule' : Sample → α → α} (h : r.All P)
    (hrule : ∀ sample a, P a → P (rule sample a))
    (hsame : ∀ sample a, P a → rule sample a = rule' sample a) (layer : Layer) :
    r.paint layer rule = r.paint layer rule' := by
  rw [paint_eq_modifyAll, paint_eq_modifyAll]
  -- The cell that is modified next is always one that the rules agree on.
  induction layer.allPlacements r.width r.height generalizing r with
  | nil => rfl
  | cons p ps ih =>
    have hnext : (r.modify p.x p.y (rule p.sample)).All P := h.modify (hrule p.sample) p.x p.y
    rw [modifyAll_cons, modifyAll_cons, ih hnext, h.modify_congr (hsame p.sample)]

end Raster.All

/-! ### Layers that store their alpha -/

/-- A pixel at full alpha. -/
def Texel.withAlpha : Texel → Texel
  | color pixel => color pixel.color.solid
  | texel => texel

/-- A tile of colours, all of them at full alpha. -/
def Tile.withAlpha (tile : Tile) : Tile :=
  { tile with
    pixels :=
      match tile.pixels with
      | .color pixels => .color (pixels.map fun pixel => pixel.color.solid)
      | pixels => pixels }

/-- A layer of colours without alpha as one with alpha: the colours are the same, and all of them are
stored at full alpha. -/
def Layer.withAlpha (layer : Layer) : Layer :=
  { layer with
    kind := .rgba
    tiles := layer.tiles.mapPlaced fun _ _ tile => tile.withAlpha }

/-- Colours are stored the same way with and without alpha, and nothing else is stored like them. -/
theorem TilePixels.Complete.exists_color {pixels : TilePixels} {size : Nat}
    (h : pixels.Complete .rgb size) : ∃ colors, pixels = .color colors ∧ colors.size = size := by
  cases pixels with
  | color colors => exact ⟨colors, rfl, h.2⟩
  | level levels => rcases h.1 with hkind | hkind <;> cases hkind
  | levelAlpha levels alphas => rcases h.1 with hkind | hkind <;> cases hkind

/-- A complete tile stays complete when alphas are stored with it. -/
theorem Tile.complete_withAlpha {tile : Tile} {size : Nat} (h : tile.pixels.Complete .rgb size) :
    tile.withAlpha.pixels.Complete .rgba size := by
  obtain ⟨colors, hcolors, hsize⟩ := h.exists_color
  unfold withAlpha
  rw [hcolors]
  exact ⟨Or.inr rfl, Array.size_map.trans hsize⟩

/-- Its texels are the old ones with their alpha. -/
theorem Tile.texel?_withAlpha (tile : Tile) (i : Nat) :
    tile.withAlpha.texel? i = (tile.texel? i).map Texel.withAlpha := by
  obtain ⟨w, t, pixels⟩ := tile
  cases pixels with
  | color pixels =>
    simp only [withAlpha, texel?, Array.getElem?_map, Option.map_map]
    rfl
  | level levels =>
    simp only [withAlpha, texel?, Option.map_map]
    rfl
  | levelAlpha levels alphas =>
    simp only [withAlpha, texel?]
    split
    · rfl
    · rfl

namespace Layer

theorem texelAt?_withAlpha (layer : Layer) (x y : Nat) :
    layer.withAlpha.tiles.texelAt? x y = (layer.tiles.texelAt? x y).map Texel.withAlpha := by
  unfold TileGrid.texelAt? withAlpha
  dsimp only
  rw [TileGrid.get?_mapPlaced]
  cases layer.tiles.get? (y / Tile.side) (x / Tile.side) with
  | none => rfl
  | some tile => exact tile.texel?_withAlpha _

/-- A layer of colours without alpha, of full opacity and without a mask that applies, that lies over
the whole of a canvas of the given size. -/
structure OpaqueBase (layer : Layer) (width height : Nat) : Prop where
  shaped : layer.WellShaped
  kind : layer.kind = .rgb
  opacity : layer.props.opacity = 255
  unmasked : layer.maskApplies = false
  liesOver : ∀ x < width, ∀ y < height, layer.LiesOver x y

namespace OpaqueBase

variable {layer : Layer} {width height : Nat} (h : layer.OpaqueBase width height)
include h

/-- A base layer with stored alphas is well-shaped. -/
theorem shaped_withAlpha : layer.withAlpha.WellShaped := by
  have hcovers := h.shaped.covers
  rw [h.kind] at hcovers
  refine ⟨?_, h.shaped.mask_covers⟩
  unfold withAlpha
  dsimp only
  apply hcovers.mapPlaced
  · exact fun _ _ _ => rfl
  · exact fun _ _ _ => rfl
  · exact fun _ _ _ => Tile.complete_withAlpha

theorem solid_withAlpha : layer.withAlpha.Solid := by
  intro tile htile
  obtain ⟨row, column, hat⟩ :=
    TileGrid.exists_get?_of_mem h.shaped_withAlpha.covers.size_eq htile
  obtain ⟨old, hold, rfl⟩ :=
    Option.map_eq_some_iff.mp ((TileGrid.get?_mapPlaced _ _ _ _).symm.trans hat)
  -- The old tile holds colours, and the new one the same at full alpha.
  have hcomplete := h.shaped.covers.complete hold
  rw [h.kind] at hcomplete
  obtain ⟨colors, hcolors, -⟩ := hcomplete.exists_color
  unfold Tile.withAlpha
  rw [hcolors]
  intro pixel hpixel
  obtain ⟨stored, -, rfl⟩ := Array.mem_map.mp hpixel
  rfl

/-- Everywhere on the canvas a pixel of each of the two layers lands, and they have the same
colour. -/
theorem exists_landings {x y : Nat} (hx : x < width) (hy : y < height) :
    ∃ texel, layer.dissolved.landing? x y = some ⟨texel, none⟩ ∧
      layer.withAlpha.dissolved.landing? x y = some ⟨texel.withAlpha, none⟩ ∧
      texel.withAlpha.alpha = 255 := by
  have hover : layer.LiesOver x y := h.liesOver x hx y hy
  have hmask : layer.maskAt? (layer.columnAt x) (layer.rowAt y) = none := by
    rw [maskAt?, h.unmasked, if_neg Bool.false_ne_true]
  -- A layer without alpha is never thinned out. Of one with alpha, opaque pixels are always kept.
  have hsettled : layer.thinsOut = false := by
    rw [thinsOut, h.kind]
    exact Bool.and_false _
  obtain ⟨texel, htexel, hlands⟩ := h.shaped.exists_landing hover hsettled
  obtain ⟨texel', htexel', hlands'⟩ :=
    h.shaped_withAlpha.exists_landing_solid h.solid_withAlpha h.unmasked
      (show layer.withAlpha.LiesOver x y from hover)
  have hsame : texel' = texel.withAlpha := by
    have hat : layer.withAlpha.tiles.texelAt? (layer.columnAt x) (layer.rowAt y) = some texel' :=
      htexel'
    rw [texelAt?_withAlpha, htexel] at hat
    exact (Option.some.inj hat).symm
  subst hsame
  rw [hmask] at hlands
  exact ⟨texel, hlands, hlands', h.solid_withAlpha.alpha_eq htexel'⟩

end OpaqueBase

/-! ### What is left of an opaque pixel -/

/-- Over an opaque pixel the canvas need not drop an alpha: the one that is worked out is full. -/
theorem mergedPixel_withAlpha (layer : Layer) (palette : Palette) (sample : Sample) {below : Pixel}
    (h : below.alpha = 255) :
    layer.mergedPixel palette false sample below = layer.mergedPixel palette true sample below := by
  -- In every mode the new alpha is that of something over an opaque pixel, or of the pixel itself.
  have hgray : (layer.mergedGray sample below).alpha = 255 := by
    unfold mergedGray
    dsimp only
    rw [h, overAlpha_solid, ite_self]
  have hcolor : (layer.mergedColor palette sample below).alpha = 255 := by
    unfold mergedColor overPixel
    dsimp only
    rw [h, overAlpha_solid, ite_self]
  have hwrite : ∀ pixel : Pixel, pixel.alpha = 255 →
      Canvas.writePixel false pixel = Canvas.writePixel true pixel := by
    rintro ⟨color, alpha⟩ halpha
    obtain rfl : alpha = 255 := halpha
    rfl
  unfold mergedPixel
  rw [hwrite _ rfl, hwrite _ hgray, hwrite _ hcolor]

end Layer

/-! ### Canvases that store an alpha -/

namespace Canvas

/-- A canvas of colours as one that stores an alpha for each of them. -/
def withAlpha : Canvas → Canvas
  | indexed format palette cells => indexed format palette cells
  | color _ cells => color true cells

/-- A canvas shows the same with alpha and without. -/
theorem colorAt?_withAlpha (canvas : Canvas) (x y : Nat) :
    canvas.withAlpha.colorAt? x y = canvas.colorAt? x y := by
  cases canvas <;> rfl

variable {canvas : Canvas} {width height : Nat}

/-- **One further layer** leaves the same on a canvas without alpha and on one that stores the alpha
of its opaque pixels. -/
theorem Sound.mergeDown_withAlpha (h : canvas.Sound) (hformat : canvas.format = .color false)
    (layer : Layer) (palette : Palette) :
    canvas.withAlpha.mergeDown layer palette = (canvas.mergeDown layer palette).withAlpha := by
  cases h with
  | indexed => cases hformat
  | @color hasAlpha cells hholdable =>
    obtain rfl : hasAlpha = false := CanvasFormat.color.inj hformat
    -- Both canvases merge alike: the pixels below are opaque, and so is what becomes of them.
    have hcells : cells.paint layer.dissolved (layer.mergedPixel palette false) =
        cells.paint layer.dissolved (layer.mergedPixel palette true) := by
      refine hholdable.paint_congr ?_ ?_ _
      · intro sample below hbelow
        exact hbelow.mergedPixel layer palette sample
      · intro sample below hbelow
        exact layer.mergedPixel_withAlpha palette sample (hbelow rfl)
    have haccepts : ∀ hasAlpha, (Canvas.color hasAlpha cells).accepts layer.kind = true := fun _ => rfl
    rw [withAlpha, mergeDown_eq, mergeDown_eq, haccepts, haccepts]
    split
    · rfl
    · rw [Canvas.repaint, Canvas.repaint, withAlpha, hcells]

theorem Sound.mergeAll (h : canvas.Sound) (palette : Palette) (layers : List Layer) :
    (canvas.mergeAll palette layers).Sound := by
  have hrun : canvas.mergeAll palette layers =
      canvas.run (layers.map fun layer => Step.mergeDown layer palette) := by
    unfold Canvas.run
    rw [List.foldl_map]
    rfl
  rw [hrun]
  exact h.run _

/-- **Further layers**, whatever they are. -/
theorem Sound.mergeAll_withAlpha (h : canvas.Sound) (hformat : canvas.format = .color false)
    (palette : Palette) (layers : List Layer) :
    canvas.withAlpha.mergeAll palette layers = (canvas.mergeAll palette layers).withAlpha := by
  -- By induction on the layers: one more keeps the canvas sound and without alpha.
  induction layers generalizing canvas with
  | nil => rfl
  | cons layer layers ih =>
    have hnext : (canvas.mergeDown layer palette).Sound := h.step (.mergeDown layer palette)
    have hkept : (canvas.mergeDown layer palette).format = .color false :=
      (mergeDown_format canvas layer palette).trans hformat
    calc canvas.withAlpha.mergeAll palette (layer :: layers)
        = (canvas.withAlpha.mergeDown layer palette).mergeAll palette layers := rfl
      _ = (canvas.mergeDown layer palette).withAlpha.mergeAll palette layers := by
        rw [h.mergeDown_withAlpha hformat]
      _ = (canvas.mergeAll palette (layer :: layers)).withAlpha := ih hnext hkept

/-- **The lowest layer** leaves the same on the canvas without alpha that it asks for as it leaves,
storing its alpha, on the canvas with alpha. -/
theorem paintBase_withAlpha {layer : Layer} (h : layer.OpaqueBase width height) (palette : Palette)
    (fill fill' : Pixel) :
    (filledColor width height true fill').paintBase layer.withAlpha palette =
      ((filledColor width height false fill).paintBase layer palette).withAlpha := by
  have hopaque : ((filledColor width height false fill).paintBase layer palette).HoldsColors false
      width height := ⟨paintBase_format _ _ _, paintBase_width _ _ _, paintBase_height _ _ _⟩
  have hstored : ((filledColor width height true fill').paintBase layer.withAlpha
      palette).HoldsColors true width height :=
    ⟨paintBase_format _ _ _, paintBase_width _ _ _, paintBase_height _ _ _⟩
  have hindexed : layer.kind.isIndexed = false := by
    rw [h.kind]
    rfl
  -- Both canvases show the colour of the layer's pixel, at full alpha.
  have hshows : ∀ x < width, ∀ y < height,
      ((filledColor width height true fill').paintBase layer.withAlpha palette).colorAt? x y =
        ((filledColor width height false fill).paintBase layer palette).colorAt? x y := by
    intro x hx y hy
    obtain ⟨texel, hlands, hlands', halpha⟩ := h.exists_landings hx hy
    have hcolor : texel.withAlpha.plainColor = texel.plainColor := by cases texel <;> rfl
    have hfull : effectiveAlpha layer.withAlpha.props.opacity none texel.withAlpha.alpha = 255 := by
      rw [halpha, show layer.withAlpha.props.opacity = 255 from h.opacity]
      rfl
    unfold filledColor
    rw [colorAt?_paintBase_color h.shaped hindexed hlands palette false _ hx hy,
      colorAt?_paintBase_color h.shaped_withAlpha rfl hlands' palette true _ hx hy, hcolor, hfull]
    rfl
  obtain ⟨cells, hcells, hwidth, hheight⟩ := hopaque.eq_color
  rw [hcells] at hshows ⊢
  exact hstored.ext ⟨rfl, hwidth, hheight⟩ hshows

/-- **Opaque layers with and without a stored alpha.** Take a layer of colours without alpha, of full
opacity, without a mask that applies and over the whole canvas, and any layers on top of it, of
whatever shape. The stack is flattened onto a canvas without alpha, and onto one with alpha if the
lowest layer stores the alpha of its pixels. At every position both canvases show the same colour at
full alpha. -/
theorem flatten?_withAlpha {base : Layer} (h : base.OpaqueBase width height) (palette : Palette)
    (above : List Layer) :
    ∃ solid stored, flatten? width height palette (base :: above) = some solid ∧
      flatten? width height palette (base.withAlpha :: above) = some stored ∧
      solid.format = .color false ∧ stored.format = .color true ∧
      ∀ x < width, ∀ y < height, ∃ color : Rgb,
        solid.colorAt? x y = some color.solid ∧ stored.colorAt? x y = some color.solid := by
  let start := (filledColor width height false Pixel.white).paintBase base palette
  let solid := start.mergeAll palette above
  have hstart : start.Sound :=
    (sound_filledColor width height false Pixel.white).step (.paintBase base palette)
  have hformat : start.format = .color false := paintBase_format _ _ _
  have hsolid : flatten? width height palette (base :: above) = some solid := by
    rw [flatten?, h.kind, h.opacity]
    rfl
  -- The stack on the stored base runs beside the other one, from the base on.
  have hstored : flatten? width height palette (base.withAlpha :: above) =
      some solid.withAlpha := by
    have hbase := paintBase_withAlpha h palette Pixel.white Pixel.clear
    have hmerged := hstart.mergeAll_withAlpha hformat palette above
    rw [← hmerged, ← hbase]
    rfl
  have hcolors : solid.HoldsColors false width height := by
    refine ⟨?_, ?_, ?_⟩
    · exact (mergeAll_format _ _ _).trans hformat
    · exact (mergeAll_width _ _ _).trans (paintBase_width _ _ _)
    · exact (mergeAll_height _ _ _).trans (paintBase_height _ _ _)
  obtain ⟨cells, hcells, rfl, rfl⟩ := hcolors.eq_color
  refine ⟨solid, solid.withAlpha, hsolid, hstored, hcolors.format_eq, ?_, fun x hx y hy => ?_⟩
  · rw [hcells]
    rfl
  -- Every pixel of a sound canvas without alpha is at full alpha.
  · have hsound : solid.Sound := hstart.mergeAll palette above
    obtain ⟨⟨color, alpha⟩, hpixel⟩ := cells.exists_get? hx hy
    rw [hcells] at hsound
    cases hsound with
    | color hholdable =>
      obtain rfl : alpha = 255 := hholdable.of_get? hpixel rfl
      refine ⟨color, ?_, ?_⟩
      · rw [hcells]
        exact hpixel
      · rw [colorAt?_withAlpha, hcells]
        exact hpixel

/-- A layer of three colours, the first of them left of the canvas, in a mode that is of no
consequence at the bottom. What it has for alphas is of none either. -/
def plainBase : Layer where
  width := 3
  height := 1
  kind := .rgb
  props := { xOffset := -1, mode := ⟨3, .multiply, false⟩ }
  tiles := ⟨1, 1, #[⟨3, 1, .color #[⟨⟨1, 2, 3⟩, 255⟩, ⟨⟨4, 5, 6⟩, 0⟩, ⟨⟨7, 8, 9⟩, 255⟩]⟩]⟩
  mask := none

/-- Under a gray layer that its mask hides and one in dissolve mode, it shows the same either way. -/
theorem flatten?_plainBase :
    plainBase.OpaqueBase 2 1 ∧
      ∃ solid stored, flatten? 2 1 #[] [plainBase, hiddenGrayLayer, overhangingLayer] = some solid ∧
        flatten? 2 1 #[] [plainBase.withAlpha, hiddenGrayLayer, overhangingLayer] = some stored ∧
        ∃ color : Rgb, solid.colorAt? 0 0 = some color.solid ∧
          stored.colorAt? 0 0 = some color.solid := by
  -- The base layer covers the canvas at full opacity.
  have hbase : plainBase.OpaqueBase 2 1 :=
    { shaped := by decide
      kind := rfl
      opacity := rfl
      unmasked := rfl
      liesOver := by decide }
  obtain ⟨solid, stored, hsolid, hstored, -, -, hcolors⟩ :=
    flatten?_withAlpha hbase #[] [hiddenGrayLayer, overhangingLayer]
  exact ⟨hbase, solid, stored, hsolid, hstored, hcolors 0 (by decide) 0 (by decide)⟩

end Canvas

end XcfFlatten
