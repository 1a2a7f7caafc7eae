import XcfFlatten.Proofs.Blend.Alpha
import XcfFlatten.Proofs.Canvas.Stack

/-!
# Gray layers as colour layers

A gray layer can be written as a colour layer whose three channels are equal (`Layer.expandGray`). A
stack of gray layers then shows the same as the stack of its expansions
(`Canvas.flatten?_expandGray`), although the first may be flattened onto a canvas of gray levels and
the second onto one of colours. The modes that exchange a component of the hue models are left out:
over gray they are not what they are over three equal channels.

Two canvases are twins if at every position they hold the same gray (`Canvas.Twin`); putting down a
lowest layer makes twins, and every further layer keeps them.
-/

namespace XcfFlatten

/-! ### Arithmetic of equal channels -/

/-- The luma of a gray is its level. -/
@[simp] theorem Rgb.luma_gray (level : UInt8) : (Rgb.gray level).luma = level := by
  -- The weights of the channels add up to the divisor.
  have hlevel : (level.toNat * 11 + level.toNat * 16 + level.toNat * 5) / 32 =
      level.toNat := by omega
  change UInt8.ofNat ((level.toNat * 11 + level.toNat * 16 + level.toNat * 5) / 32) = level
  rw [hlevel, UInt8.ofNat_toNat]

/-- Channel by channel, equal channels stay equal. -/
theorem Rgb.zipWith_gray (f : UInt8 → UInt8 → UInt8) (a b : UInt8) :
    Rgb.zipWith f (Rgb.gray a) (Rgb.gray b) = Rgb.gray (f a b) := rfl

/-- On equal channels, modes that work channel by channel do what they do on levels. -/
theorem BlendMode.blendColor_gray {mode : BlendMode} (h : mode.isComponent = false)
    (source below : UInt8) :
    mode.blendColor (Rgb.gray source) (Rgb.gray below) =
      Rgb.gray (mode.blendGray source below) := by
  cases mode
  case hue | saturation | color | value => exact absurd h Bool.noConfusion
  all_goals rfl

/-- Apart from the component modes, a mode mixes gray levels if and only if it mixes colours. -/
theorem BlendMode.mixesGray_eq {mode : BlendMode} (h : mode.isComponent = false) :
    mode.mixesGray = mode.mixesColor := by
  rw [mixesGray, h, Bool.not_false, Bool.and_true]

@[simp] theorem size_grayRamp : grayRamp.size = 256 := Array.size_ofFn

/-- Every level can be stored on a canvas with the ramp. -/
@[simp] theorem Canvas.writeIndex_grayRamp (index below : UInt8) :
    writeIndex grayRamp index below = index := by
  rw [writeIndex, size_grayRamp]
  exact if_pos index.toNat_lt

/-- The entries of the gray ramp are the opaque grays. -/
@[simp] theorem Canvas.entry_grayRamp (index : UInt8) :
    entry grayRamp index = (Rgb.gray index).solid := by
  have hlt : index.toNat < grayRamp.size := size_grayRamp ▸ index.toNat_lt
  have hget : grayRamp[index.toNat] = (Rgb.gray (UInt8.ofNat index.toNat)).solid :=
    Array.getElem_ofFn hlt
  rw [entry, Array.getD_eq_getD_getElem?, Array.getElem?_eq_getElem hlt, hget, UInt8.ofNat_toNat]
  rfl

/-! ### Expanding gray -/

theorem LayerKind.isGray_iff {kind : LayerKind} :
    kind.isGray = true ↔ kind = gray ∨ kind = grayAlpha := by
  cases kind <;> decide

theorem LayerKind.isIndexed_of_isGray {kind : LayerKind} (h : kind.isGray = true) :
    kind.isIndexed = false := by
  rcases isGray_iff.mp h with rfl | rfl <;> rfl

/-- The kind of colour layers with or without alpha as a kind of gray layers. -/
def LayerKind.expandGray : LayerKind → LayerKind
  | gray => rgb
  | grayAlpha => rgba
  | kind => kind

theorem LayerKind.isIndexed_expandGray {kind : LayerKind} (h : kind.isGray = true) :
    kind.expandGray.isIndexed = false := by
  rcases isGray_iff.mp h with rfl | rfl <;> rfl

theorem LayerKind.isGray_expandGray {kind : LayerKind} (h : kind.isGray = true) :
    kind.expandGray.isGray = false := by
  rcases isGray_iff.mp h with rfl | rfl <;> rfl

/-- A gray level as a pixel of three equal channels. -/
def Texel.expandGray : Texel → Texel
  | level v => color (Rgb.gray v).solid
  | levelAlpha v a => color ⟨Rgb.gray v, a⟩
  | color pixel => color pixel

/-- A tile of gray levels as a tile of colours. -/
def Tile.expandGray (tile : Tile) : Tile :=
  { tile with
    pixels :=
      match tile.pixels with
      | .level levels => .color (levels.map fun v => (Rgb.gray v).solid)
      | .levelAlpha levels alphas =>
          .color (Array.zipWith (fun v a => ⟨Rgb.gray v, a⟩) levels alphas)
      | .color pixels => .color pixels }

/-- A gray layer as the colour layer with three equal channels, and with the same alpha if it has
any. -/
def Layer.expandGray (layer : Layer) : Layer :=
  { layer with
    kind := layer.kind.expandGray
    tiles := layer.tiles.mapPlaced fun _ _ tile => tile.expandGray }

/-- A texel of a gray kind is not a colour. -/
theorem Texel.OfKind.ne_color {texel : Texel} {kind : LayerKind} (h : texel.OfKind kind)
    (hkind : kind.isGray = true) (pixel : Pixel) : texel ≠ color pixel := by
  rintro rfl
  rcases h with rfl | rfl
  · cases hkind
  · cases hkind

/-- A pixel that is no colour is expanded to its level and its alpha. -/
theorem Texel.OfKind.expandGray_eq {texel : Texel} {kind : LayerKind} (h : texel.OfKind kind)
    (hkind : kind.isGray = true) :
    texel.expandGray = color ⟨Rgb.gray texel.value, texel.alpha⟩ := by
  cases texel with
  | color pixel => exact absurd rfl (h.ne_color hkind pixel)
  | level v => rfl
  | levelAlpha v a => rfl

theorem Texel.alpha_expandGray (texel : Texel) : texel.expandGray.alpha = texel.alpha := by
  cases texel <;> rfl

/-- Expanding a pixel and thinning it out can be done in any order. -/
theorem Texel.thin_expandGray (random : UInt8) {texel : Texel} {kind : LayerKind}
    (h : texel.OfKind kind) (hkind : kind = .grayAlpha) :
    texel.expandGray.thin random = (texel.thin random).expandGray := by
  subst hkind
  cases texel with
  | color pixel => rcases h with h | h <;> cases h
  | level v => rcases h with h | h <;> cases h
  | levelAlpha v a => rfl

/-- The texels of an expanded tile are the expanded texels. -/
theorem Tile.texel?_expandGray (tile : Tile) (i : Nat) :
    tile.expandGray.texel? i = (tile.texel? i).map Texel.expandGray := by
  obtain ⟨w, h, pixels⟩ := tile
  -- A gray tile has its levels copied into three channels; a colour tile stays as it is.
  cases pixels with
  | color pixels =>
    simp only [expandGray, texel?]
    cases pixels[i]? with
    | none => rfl
    | some pixel => rfl
  | level levels =>
    simp only [expandGray, texel?, Array.getElem?_map]
    cases levels[i]? with
    | none => rfl
    | some v => rfl
  | levelAlpha levels alphas =>
    simp only [expandGray, texel?, Array.getElem?_zipWith]
    cases levels[i]? with
    | none => rfl
    | some v =>
      cases alphas[i]? with
      | none => rfl
      | some a => rfl

/-- An expanded tile is as complete as the gray one. -/
theorem Tile.complete_expandGray {tile : Tile} {kind : LayerKind} {size : Nat}
    (hkind : kind.isGray = true) (h : tile.pixels.Complete kind size) :
    tile.expandGray.pixels.Complete kind.expandGray size := by
  -- A gray tile holds levels, with or without alphas. The other shapes belong to other kinds.
  obtain ⟨w, t, pixels⟩ := tile
  cases pixels with
  | color pixels =>
    rcases h.1 with rfl | rfl
    · cases hkind
    · cases hkind
  | level levels =>
    rcases h.1 with rfl | rfl
    · exact ⟨Or.inl rfl, Array.size_map.trans h.2⟩
    · cases hkind
  | levelAlpha levels alphas =>
    rcases h.1 with rfl | rfl
    · exact ⟨Or.inr rfl, by rw [Array.size_zipWith, h.2.1, h.2.2, Nat.min_self]⟩
    · cases hkind

/-- A sample of a gray layer as one of its expansion. -/
def Sample.expandGray (sample : Sample) : Sample := { sample with texel := sample.texel.expandGray }

/-! ### What an expanded layer shows -/

/-- Every sample of a well-shaped layer is a pixel of the layer's kind. -/
theorem Layer.WellShaped.ofKind_landing? {layer : Layer} (h : layer.WellShaped) {x y : Nat}
    {sample : Sample} (hlands : layer.landing? x y = some sample) :
    sample.texel.OfKind layer.kind := by
  unfold landing? at hlands
  split at hlands
  · next hover =>
    obtain ⟨texel, htexel, hsample⟩ := h.exists_sample hover.columnAt_lt hover.rowAt_lt
    rw [hsample] at hlands
    cases hlands
    exact h.covers.ofKind htexel
  · cases hlands

namespace Layer

variable {layer : Layer}

/-- The samples of an expanded layer are the expanded samples. -/
theorem sampleAt?_expandGray (layer : Layer) (x y : Nat) :
    layer.expandGray.sampleAt? x y = (layer.sampleAt? x y).map Sample.expandGray := by
  unfold sampleAt? expandGray
  dsimp only
  rw [TileGrid.get?_mapPlaced]
  cases layer.tiles.get? (y / Tile.side) (x / Tile.side) with
  | none => rfl
  | some tile =>
    rw [Option.map_some, Option.bind_some, Option.bind_some, Tile.texel?_expandGray, Option.map_map,
      Option.map_map]
    rfl

/-- They land where the gray ones do. -/
theorem landing?_expandGray (layer : Layer) (x y : Nat) :
    layer.expandGray.landing? x y = (layer.landing? x y).map Sample.expandGray := by
  unfold landing?
  by_cases hover : layer.LiesOver x y
  · rw [if_pos hover, if_pos (show layer.expandGray.LiesOver x y from hover)]
    exact sampleAt?_expandGray layer _ _
  · rw [if_neg hover, if_neg (show ¬ layer.expandGray.LiesOver x y from hover)]
    rfl

/-- An expanded layer has the shape of the gray one. -/
theorem WellShaped.expandGray (h : layer.WellShaped) (hkind : layer.kind.isGray = true) :
    layer.expandGray.WellShaped := by
  refine ⟨?_, h.mask_covers⟩
  unfold Layer.expandGray
  dsimp only
  apply h.covers.mapPlaced
  · exact fun _ _ _ => rfl
  · exact fun _ _ _ => rfl
  · exact fun _ _ _ => Tile.complete_expandGray hkind

/-- A gray layer is thinned out if and only if its expansion is. -/
theorem thinsOut_expandGray (hkind : layer.kind.isGray = true) :
    layer.expandGray.thinsOut = layer.thinsOut := by
  unfold thinsOut
  rw [show layer.expandGray.kind = layer.kind.expandGray from rfl, show layer.expandGray.props =
    layer.props from rfl]
  rcases LayerKind.isGray_iff.mp hkind with hgray | hgray
  · rw [hgray]
    rfl
  · rw [hgray]
    rfl

/-- Expanding a sample and thinning it out can be done in any order. -/
theorem thinAt_expandGray (hkind : layer.kind.isGray = true) (x y : Nat) {sample : Sample}
    (hsample : sample.texel.OfKind layer.kind) :
    layer.expandGray.thinAt x y sample.expandGray = (layer.thinAt x y sample).expandGray := by
  unfold thinAt
  rw [thinsOut_expandGray hkind]
  by_cases hthins : layer.thinsOut = true
  · -- Of the gray kinds only the one with alpha is thinned out.
    have halpha : layer.kind = .grayAlpha := by
      rcases LayerKind.isGray_iff.mp hkind with hgray | hgray
      · unfold thinsOut at hthins
        rw [hgray] at hthins
        exact absurd (Bool.and_eq_true_iff.mp hthins).2 Bool.noConfusion
      · exact hgray
    rw [if_pos hthins, if_pos hthins]
    unfold Sample.expandGray
    rw [Texel.thin_expandGray _ hsample halpha]
  · rw [if_neg hthins, if_neg hthins]

/-- Expanding a layer and thinning it out can be done in any order. -/
theorem WellShaped.landing?_dissolved_expandGray (h : layer.WellShaped)
    (hkind : layer.kind.isGray = true) (x y : Nat) :
    layer.expandGray.dissolved.landing? x y =
      (layer.dissolved.landing? x y).map Sample.expandGray := by
  rw [(h.expandGray hkind).landing?_dissolved, h.landing?_dissolved, landing?_expandGray,
    Option.map_map, Option.map_map]
  -- Both layers have a sample there or neither has, and thinning it out commutes with expanding it.
  cases hlands : layer.landing? x y with
  | none => rfl
  | some sample =>
    rw [Option.map_some, Option.map_some]
    exact congrArg some (thinAt_expandGray hkind _ _ (h.ofKind_landing? hlands))

/-! ### What an expanded sample makes of a cell -/

section Rules

variable (hkind : layer.kind.isGray = true)
include hkind

/-- What a gray sample leaves of an index into the gray ramp. -/
theorem mergedIndex_of_isGray (sample : Sample) (below : UInt8) :
    layer.mergedIndex grayRamp sample below =
      if sample.texel.alpha = 0 then below
      else mix (layer.props.mode.blend.blendGray sample.texel.value below) below
        (UInt8.ofNat (layer.alphaOf sample sample.texel.alpha)) 255 := by
  have hindexed : layer.kind.isIndexed = false := LayerKind.isIndexed_of_isGray hkind
  have hne : layer.kind ≠ .indexed := by
    intro h
    rw [h] at hindexed
    cases hindexed
  -- Every index has an entry in the ramp, so nothing keeps the level from being written.
  unfold mergedIndex
  dsimp only
  rw [if_neg hne, hindexed, if_neg Bool.false_ne_true, Canvas.writeIndex_grayRamp]

/-- A gray layer merges its levels, except where it is transparent. -/
theorem mergedPixel_of_isGray (palette : Palette) (hasAlpha : Bool) (sample : Sample)
    (below : Pixel) :
    layer.mergedPixel palette hasAlpha sample below =
      if sample.texel.alpha = 0 then below
      else Canvas.writePixel hasAlpha (layer.mergedGray sample below) := by
  unfold mergedPixel
  rw [LayerKind.isIndexed_of_isGray hkind, if_neg Bool.false_ne_true, hkind, if_pos rfl]

/-- Its expansion merges colours, except at the same places. -/
theorem mergedPixel_expandGray_eq (palette : Palette) (hasAlpha : Bool) (sample : Sample)
    (below : Pixel) :
    layer.expandGray.mergedPixel palette hasAlpha sample.expandGray below =
      if sample.texel.alpha = 0 then below
      else
        Canvas.writePixel hasAlpha
          (layer.expandGray.mergedColor palette sample.expandGray below) := by
  have hindexed : layer.expandGray.kind.isIndexed = false := LayerKind.isIndexed_expandGray hkind
  have hgray : layer.expandGray.kind.isGray = false := LayerKind.isGray_expandGray hkind
  have halpha : sample.expandGray.texel.alpha = sample.texel.alpha :=
    Texel.alpha_expandGray sample.texel
  unfold mergedPixel
  rw [hindexed, hgray, halpha, if_neg Bool.false_ne_true, if_neg Bool.false_ne_true]

variable {sample : Sample} (hsample : sample.texel.OfKind layer.kind)
include hsample

/-- The colour of a gray sample, whatever the palette. -/
theorem colorOf_of_isGray (palette : Palette) :
    layer.colorOf palette sample = Rgb.gray sample.texel.value := by
  unfold colorOf
  split
  · next pixel htexel => exact absurd htexel (hsample.ne_color hkind pixel)
  · rw [LayerKind.isIndexed_of_isGray hkind]
    rfl

/-- The colour of an expanded sample is the gray of its level. -/
theorem colorOf_expandGray (palette : Palette) :
    layer.expandGray.colorOf palette sample.expandGray = Rgb.gray sample.texel.value := by
  unfold colorOf Sample.expandGray
  rw [hsample.expandGray_eq hkind]

/-- As a lowest layer, both leave the same gray on an opaque canvas. -/
theorem basePixel_expandGray_solid (palette : Palette) (below : UInt8) :
    layer.expandGray.basePixel palette false sample.expandGray (Rgb.gray below).solid =
      (Rgb.gray (layer.baseIndex grayRamp sample below)).solid := by
  have hindexed : layer.kind ≠ .indexedAlpha := by
    intro h
    rw [h] at hkind
    cases hkind
  unfold basePixel baseIndex
  rw [colorOf_expandGray hkind hsample, if_neg hindexed, Canvas.writeIndex_grayRamp]
  rfl

/-- As a lowest layer, both leave the same gray on a canvas with alpha. -/
theorem basePixel_expandGray (palette palette' : Palette) (below : Pixel) :
    ∃ v a, layer.basePixel palette true sample below = ⟨Rgb.gray v, a⟩ ∧
      layer.expandGray.basePixel palette' true sample.expandGray below = ⟨Rgb.gray v, a⟩ := by
  have hindexed : layer.kind.isIndexed = false := LayerKind.isIndexed_of_isGray hkind
  have hexpanded : layer.expandGray.kind.isIndexed = false := LayerKind.isIndexed_expandGray hkind
  -- Both paint the gray of the level with the alpha that the sample has.
  refine ⟨sample.texel.value, UInt8.ofNat (layer.alphaOf sample sample.texel.alpha), ?_, ?_⟩
  · unfold basePixel
    rw [colorOf_of_isGray hkind hsample, hindexed]
    rfl
  · unfold basePixel
    rw [colorOf_expandGray hkind hsample, hexpanded, Sample.expandGray, Texel.alpha_expandGray]
    rfl

variable (hblend : layer.props.mode.blend.isComponent = false)
include hblend

/-- Over gray, blending three equal channels is blending the level. -/
theorem mergedColor_expandGray (palette : Palette) (level alpha : UInt8) :
    layer.expandGray.mergedColor palette sample.expandGray ⟨Rgb.gray level, alpha⟩ =
      layer.mergedGray sample ⟨Rgb.gray level, alpha⟩ := by
  have halpha : sample.expandGray.texel.alpha = sample.texel.alpha :=
    Texel.alpha_expandGray sample.texel
  have hprops : layer.expandGray.props = layer.props := rfl
  have halphaOf : ∀ a, layer.expandGray.alphaOf sample.expandGray a = layer.alphaOf sample a :=
    fun _ => rfl
  -- The gray path reads the luminance of the backdrop, which of equal channels is their level.
  unfold mergedColor mergedGray overPixel
  dsimp only
  rw [hprops, halpha, halphaOf, colorOf_expandGray hkind hsample, BlendMode.blendColor_gray hblend,
    BlendMode.mixesGray_eq hblend, Rgb.luma_gray, Rgb.zipWith_gray]

/-- As a further layer, both leave the same gray on an opaque canvas. -/
theorem mergedPixel_expandGray_solid (palette : Palette) (below : UInt8) :
    layer.expandGray.mergedPixel palette false sample.expandGray (Rgb.gray below).solid =
      (Rgb.gray (layer.mergedIndex grayRamp sample below)).solid := by
  have hmin : min sample.texel.alpha 255 = sample.texel.alpha :=
    if_pos (UInt8.le_iff_toNat_le.mpr (Nat.le_of_lt_succ sample.texel.alpha.toNat_lt))
  rw [mergedPixel_expandGray_eq hkind, mergedIndex_of_isGray hkind, Rgb.solid,
    mergedColor_expandGray hkind hsample hblend]
  -- A clear pixel is passed over on both sides. Any other meets an opaque backdrop, so clipping its
  -- alpha to that of the backdrop is without effect and the result is opaque, as the gray path
  -- takes for granted.
  by_cases hclear : sample.texel.alpha = 0
  · rw [if_pos hclear, if_pos hclear]
    rfl
  · rw [if_neg hclear, if_neg hclear]
    unfold mergedGray Canvas.writePixel
    dsimp only
    rw [Rgb.luma_gray, hmin, ite_self, overAlpha_solid]
    rfl

/-- As a further layer, both leave the same gray on a canvas with alpha. -/
theorem mergedPixel_expandGray (palette palette' : Palette) (level alpha : UInt8) :
    ∃ v a, layer.mergedPixel palette true sample ⟨Rgb.gray level, alpha⟩ = ⟨Rgb.gray v, a⟩ ∧
      layer.expandGray.mergedPixel palette' true sample.expandGray ⟨Rgb.gray level, alpha⟩ =
        ⟨Rgb.gray v, a⟩ := by
  rw [mergedPixel_of_isGray hkind, mergedPixel_expandGray_eq hkind,
    mergedColor_expandGray hkind hsample hblend]
  -- A transparent sample leaves the gray below, any other is merged alike on both sides.
  by_cases hclear : sample.texel.alpha = 0
  · rw [if_pos hclear]
    exact ⟨level, alpha, rfl, rfl⟩
  · rw [if_neg hclear]
    exact ⟨_, _, rfl, rfl⟩

end Rules

end Layer

/-- A layer that can be expanded: a well-shaped gray layer in a mode that has a meaning for gray
levels. -/
structure Layer.Expandable (layer : Layer) : Prop where
  shaped : layer.WellShaped
  gray : layer.kind.isGray = true
  blend : layer.props.mode.blend.isComponent = false

/-! ### Cells that go together -/

/-- Two rasters of the same size hold cells that go together at every position. -/
structure Raster.Related {α β : Type} (P : α → β → Prop) (a : Raster α) (b : Raster β) : Prop where
  width_eq : a.width = b.width
  height_eq : a.height = b.height
  cells : ∀ {x y}, x < a.width → y < a.height →
    ∃ u v, a.get? x y = some u ∧ b.get? x y = some v ∧ P u v

namespace Raster.Related

variable {α β : Type} {P : α → β → Prop}

theorem filled {u : α} {v : β} (h : P u v) (width height : Nat) :
    Related P (Raster.filled width height u) (Raster.filled width height v) :=
  ⟨rfl, rfl, fun hx hy => ⟨u, v, get?_filled hx hy, get?_filled hx hy, h⟩⟩

/-- **One layer.** A gray layer and its expansion change cells that go together into such cells, if
their rules do so for every sample. -/
theorem paint {a : Raster α} {b : Raster β} (h : Related P a b) {layer : Layer}
    (hshaped : layer.WellShaped) (hkind : layer.kind.isGray = true) {rule : Sample → α → α}
    {rule' : Sample → β → β}
    (hrules : ∀ sample u v, sample.texel.OfKind layer.kind → P u v →
      P (rule sample u) (rule' sample.expandGray v)) :
    Related P (a.paint layer.dissolved rule) (b.paint layer.expandGray.dissolved rule') := by
  refine ⟨?_, ?_, fun {x y} hx hy => ?_⟩
  · rw [paint_width, paint_width, h.width_eq]
  · rw [paint_height, paint_height, h.height_eq]
  rw [paint_width] at hx
  rw [paint_height] at hy
  -- Whatever happens at a position depends on the two cells there and on one sample.
  obtain ⟨u, v, hu, hv, huv⟩ := h.cells hx hy
  have hexpanded : layer.expandGray.dissolved.WellShaped := (hshaped.expandGray hkind).dissolved
  rw [get?_paint hshaped.dissolved _ _ hx hy,
    get?_paint hexpanded _ _ (h.width_eq ▸ hx) (h.height_eq ▸ hy), hu, hv,
    hshaped.landing?_dissolved_expandGray hkind]
  -- Both layers have a sample at the position or neither has, and the two samples go together.
  cases hlands : layer.dissolved.landing? x y with
  | none => exact ⟨u, v, rfl, rfl, huv⟩
  | some sample =>
    have hsample : sample.texel.OfKind layer.kind :=
      Layer.dissolved_kind ▸ hshaped.dissolved.ofKind_landing? hlands
    exact ⟨_, _, rfl, rfl, hrules sample u v hsample huv⟩

end Raster.Related

/-! ### Canvases that show the same grays -/

namespace Canvas

/-- Two canvases of the same size hold the same gray at every position: the first as a level and the
second as a pixel of three equal channels, or both as such a pixel with the same alpha. -/
inductive Twin : Canvas → Canvas → Prop
  | level {a : Raster UInt8} {b : Raster Pixel}
      (h : a.Related (fun level pixel => pixel = (Rgb.gray level).solid) b) :
      Twin (indexed .gray8 grayRamp a) (color false b)
  | pixel {a b : Raster Pixel}
      (h : a.Related (fun p q => q = p ∧ ∃ level, p.color = Rgb.gray level) b) :
      Twin (color true a) (color true b)

/-- Twins show the same pixel at every position. -/
theorem Twin.colorAt? {gray colored : Canvas} (h : Twin gray colored) {x y : Nat}
    (hx : x < gray.width) (hy : y < gray.height) :
    ∃ pixel, gray.colorAt? x y = some pixel ∧ colored.colorAt? x y = some pixel := by
  cases h with
  | level h =>
    obtain ⟨level, pixel, ha, hb, rfl⟩ := h.cells hx hy
    exact ⟨(Rgb.gray level).solid, by rw [Canvas.colorAt?, ha, Option.map_some, entry_grayRamp], hb⟩
  | pixel h =>
    obtain ⟨p, q, ha, hb, rfl, -⟩ := h.cells hx hy
    exact ⟨q, ha, hb⟩

section Repaint

variable {gray colored : Canvas} {layer : Layer}

/-- Painting a gray layer and its expansion keeps twins, if their rules keep levels and pixels
equal. -/
theorem Twin.repaint (h : Twin gray colored) (hshaped : layer.WellShaped)
    (hkind : layer.kind.isGray = true) {indexRule indexRule' : Array Pixel → Sample → UInt8 → UInt8}
    {pixelRule pixelRule' : Bool → Sample → Pixel → Pixel}
    (hlevel : ∀ sample below, sample.texel.OfKind layer.kind →
      pixelRule' false sample.expandGray (Rgb.gray below).solid =
        (Rgb.gray (indexRule grayRamp sample below)).solid)
    (hpixel : ∀ sample level alpha, sample.texel.OfKind layer.kind →
      ∃ v a, pixelRule true sample ⟨Rgb.gray level, alpha⟩ = ⟨Rgb.gray v, a⟩ ∧
        pixelRule' true sample.expandGray ⟨Rgb.gray level, alpha⟩ = ⟨Rgb.gray v, a⟩) :
    Twin (gray.repaint layer indexRule pixelRule)
      (colored.repaint layer.expandGray indexRule' pixelRule') := by
  -- On levels the index rule meets the pixel rule; with alpha both sides use the pixel rule.
  cases h with
  | level h =>
    refine Twin.level (h.paint hshaped hkind fun sample below pixel hsample hbelow => ?_)
    rw [hbelow]
    exact hlevel sample below hsample
  | pixel h =>
    refine Twin.pixel (h.paint hshaped hkind fun sample p q hsample hbelow => ?_)
    obtain ⟨rfl, level, hgray⟩ := hbelow
    obtain ⟨v, a, hp, hq⟩ := hpixel sample level q.alpha hsample
    rw [← hgray] at hp hq
    exact ⟨hq.trans hp.symm, v, congrArg Pixel.color hp⟩

/-- Painting a gray layer first, and its expansion, makes twins of twins. -/
theorem Twin.paintBase (h : Twin gray colored) (hshaped : layer.WellShaped)
    (hkind : layer.kind.isGray = true) (palette palette' : Palette) :
    Twin (gray.paintBase layer palette) (colored.paintBase layer.expandGray palette') := by
  rw [paintBase_eq, paintBase_eq]
  refine h.repaint hshaped hkind ?_ ?_
  · intro sample below hsample
    exact Layer.basePixel_expandGray_solid hkind hsample palette' below
  · intro sample level alpha hsample
    exact Layer.basePixel_expandGray hkind hsample palette palette' ⟨Rgb.gray level, alpha⟩

/-- Merging a gray layer, and its expansion, makes twins of twins, unless the mode works on the
components of colours. -/
theorem Twin.mergeDown (h : Twin gray colored) (hshaped : layer.WellShaped)
    (hkind : layer.kind.isGray = true) (hblend : layer.props.mode.blend.isComponent = false)
    (palette palette' : Palette) :
    Twin (gray.mergeDown layer palette) (colored.mergeDown layer.expandGray palette') := by
  -- Neither canvas refuses the layer, so both pass it over for its opacity or neither does.
  have haccepts : gray.accepts layer.kind = true ∧
      colored.accepts layer.expandGray.kind = true := by
    cases h with
    | level => exact ⟨hkind, rfl⟩
    | pixel => exact ⟨rfl, rfl⟩
  have hprops : layer.expandGray.props = layer.props := rfl
  rw [mergeDown_eq, mergeDown_eq, haccepts.1, haccepts.2, hprops]
  split
  · exact h
  · refine h.repaint hshaped hkind ?_ ?_
    · intro sample below hsample
      exact Layer.mergedPixel_expandGray_solid hkind hsample hblend palette' below
    · intro sample level alpha hsample
      exact Layer.mergedPixel_expandGray hkind hsample hblend palette palette' level alpha

end Repaint

/-- The canvases that a gray layer and its expansion ask for are twins. -/
theorem exists_twin_forBase? (width height : Nat) {kind : LayerKind} (hkind : kind.isGray = true)
    (opacity : UInt8) (palette palette' : Palette) :
    ∃ gray colored, forBase? width height kind opacity palette = some gray ∧
      forBase? width height kind.expandGray opacity palette' = some colored ∧ Twin gray colored ∧
      gray.width = width ∧ gray.height = height := by
  have hclear : Twin (filledColor width height true Pixel.clear)
      (filledColor width height true Pixel.clear) :=
    Twin.pixel (Raster.Related.filled ⟨rfl, 255, rfl⟩ width height)
  have hwhite : Twin (filledIndexed width height .gray8 grayRamp 255)
      (filledColor width height false Pixel.white) :=
    Twin.level (Raster.Related.filled (P := fun level pixel => pixel = (Rgb.gray level).solid)
      rfl width height)
  -- Only an opaque layer without alpha asks for a canvas without alpha, of levels or of colours.
  rcases LayerKind.isGray_iff.mp hkind with rfl | rfl
  · unfold forBase? LayerKind.expandGray
    dsimp only
    by_cases hopacity : opacity = 255
    · rw [if_pos hopacity, if_pos hopacity]
      exact ⟨_, _, rfl, rfl, hwhite, rfl, rfl⟩
    · rw [if_neg hopacity, if_neg hopacity]
      exact ⟨_, _, rfl, rfl, hclear, rfl, rfl⟩
  · exact ⟨_, _, rfl, rfl, hclear, rfl, rfl⟩

/-- **A stack of layers.** Merging gray layers and their expansions keeps twins. -/
theorem Twin.mergeAll {gray colored : Canvas} (h : Twin gray colored) (palette palette' : Palette)
    {layers : List Layer} (hlayers : ∀ layer ∈ layers, layer.Expandable) :
    Twin (gray.mergeAll palette layers)
      (colored.mergeAll palette' (layers.map Layer.expandGray)) := by
  -- Each layer meets the twins that the layers below have left.
  induction layers generalizing gray colored with
  | nil => exact h
  | cons layer layers ih =>
    have hlayer := hlayers layer List.mem_cons_self
    exact ih (h.mergeDown hlayer.shaped hlayer.gray hlayer.blend palette palette')
      fun other hother => hlayers other (List.mem_cons_of_mem _ hother)

/-- **Gray stacks flatten like their expansions.** Both stacks are flattened, and both canvases show
the same pixel at every position. -/
theorem flatten?_expandGray (width height : Nat) (palette palette' : Palette) {layers : List Layer}
    (hne : layers ≠ []) (hlayers : ∀ layer ∈ layers, layer.Expandable) :
    ∃ gray colored, flatten? width height palette layers = some gray ∧
      flatten? width height palette' (layers.map Layer.expandGray) = some colored ∧
      ∀ x < width, ∀ y < height,
        ∃ pixel, gray.colorAt? x y = some pixel ∧ colored.colorAt? x y = some pixel := by
  cases layers with
  | nil => exact absurd rfl hne
  | cons bottom above =>
    have hbottom := hlayers bottom List.mem_cons_self
    -- The lowest layer and its expansion ask for twins, and every layer keeps them.
    obtain ⟨gray, colored, hgray, hcolored, htwin, hwidth, hheight⟩ :=
      exists_twin_forBase? width height hbottom.gray bottom.props.opacity palette palette'
    have hpainted := htwin.paintBase hbottom.shaped hbottom.gray palette palette'
    have hflat := hpainted.mergeAll palette palette' fun layer hlayer =>
      hlayers layer (List.mem_cons_of_mem _ hlayer)
    have hexpanded : forBase? width height bottom.expandGray.kind
        bottom.expandGray.props.opacity palette' = some colored := hcolored
    refine ⟨_, _, by rw [flatten?, hgray, Option.map_some], ?_,
      fun x hx y hy => hflat.colorAt? ?_ ?_⟩
    · rw [List.map_cons, flatten?, hexpanded, Option.map_some]
    · rw [mergeAll_width, paintBase_width, hwidth]
      exact hx
    · rw [mergeAll_height, paintBase_height, hheight]
      exact hy

/-- A gray layer without alpha under `overhangingLayer`, in a mode that is of no consequence at the
bottom. -/
def grayStack : List Layer :=
  [{ width := 2
     height := 1
     kind := .gray
     props := { mode := ⟨3, .multiply, false⟩ }
     tiles := ⟨1, 1, #[⟨2, 1, .level #[17, 200]⟩]⟩
     mask := none }, overhangingLayer]

/-- `grayStack` is flattened to gray levels and its expansion to colours. -/
theorem flatten?_grayStack :
    grayStack ≠ [] ∧ (∀ layer ∈ grayStack, layer.Expandable) ∧
      ∃ gray colored, flatten? 2 1 #[] grayStack = some gray ∧
        flatten? 2 1 #[] (grayStack.map Layer.expandGray) = some colored ∧
        ∃ pixel, gray.colorAt? 0 0 = some pixel ∧ colored.colorAt? 0 0 = some pixel := by
  have hlayers : ∀ layer ∈ grayStack, layer.Expandable := by
    intro layer hlayer
    rcases List.mem_pair.mp hlayer with rfl | rfl
    · exact ⟨by decide, rfl, rfl⟩
    · exact ⟨by decide, rfl, rfl⟩
  obtain ⟨gray, colored, hgray, hcolored, hpixels⟩ :=
    flatten?_expandGray 2 1 #[] #[] (List.cons_ne_nil _ _) hlayers
  exact ⟨List.cons_ne_nil _ _, hlayers, gray, colored, hgray, hcolored,
    hpixels 0 (by decide) 0 (by decide)⟩

end Canvas

end XcfFlatten
