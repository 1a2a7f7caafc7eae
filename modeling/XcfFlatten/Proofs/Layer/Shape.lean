import XcfFlatten.Layer

/-!
# Well-shaped layers

A layer is well-shaped if it is cut along the tile grid of its size, with complete pixels of its
kind in every tile, and if its mask, where it has one, is cut the same way (`Layer.WellShaped`).
Nothing here depends on how large a layer is.

A position in such a layer lies in one tile and at one place in it:

* `TileGrid.Covers.exists_texel` — every position inside has a pixel, stored in the tile of its row
  and column;
* `Layer.WellShaped.exists_sample` — and so a sample, to which the mask contributes its value at the
  same place.

A layer may be opaque all over (`Layer.Solid`), as those are that store no alpha.
-/

namespace XcfFlatten

/-- The pixels of a tile are complete: `size` of them, stored the way the kind stores them. -/
def TilePixels.Complete (kind : LayerKind) (size : Nat) : TilePixels → Prop
  | .color pixels => (kind = .rgb ∨ kind = .rgba) ∧ pixels.size = size
  | .level levels => (kind = .gray ∨ kind = .indexed) ∧ levels.size = size
  | .levelAlpha levels alphas =>
    (kind = .grayAlpha ∨ kind = .indexedAlpha) ∧ levels.size = size ∧ alphas.size = size

/-- A grid covers a raster of the given size: it has the rows and columns of the raster's tiles, and
each tile is as large as its place asks for and complete. -/
structure TileGrid.Covers (grid : TileGrid Tile) (width height : Nat)
    (kind : LayerKind) : Prop where
  rows_eq : grid.rows = Tile.count height
  columns_eq : grid.columns = Tile.count width
  size_eq : grid.tiles.size = grid.rows * grid.columns
  tile_width : ∀ {row column tile}, grid.get? row column = some tile →
    tile.width = Tile.extent column width
  tile_height : ∀ {row column tile}, grid.get? row column = some tile →
    tile.height = Tile.extent row height
  complete : ∀ {row column tile}, grid.get? row column = some tile →
    tile.pixels.Complete kind (tile.width * tile.height)

/-- A layer is well-shaped if its tiles cover it, and those of its mask too. A mask is stored like
gray levels. -/
structure Layer.WellShaped (layer : Layer) : Prop where
  covers : layer.tiles.Covers layer.width layer.height layer.kind
  mask_covers : ∀ mask, layer.mask = some mask → mask.tiles.Covers layer.width layer.height .gray

instance (kind : LayerKind) (size : Nat) :
    (pixels : TilePixels) → Decidable (pixels.Complete kind size)
  | .color _ => inferInstanceAs (Decidable (_ ∧ _))
  | .level _ => inferInstanceAs (Decidable (_ ∧ _))
  | .levelAlpha _ _ => inferInstanceAs (Decidable (_ ∧ _ ∧ _))

/-- There is nothing outside a grid. -/
theorem TileGrid.lt_of_get? {α : Type} {grid : TileGrid α} {row column : Nat} {a : α}
    (h : grid.get? row column = some a) : row < grid.rows ∧ column < grid.columns := by
  by_cases hin : row < grid.rows ∧ column < grid.columns
  · exact hin
  · rw [get?, if_neg hin] at h
    cases h

/-- Only the places inside a grid have to be looked at to see what it covers. -/
theorem TileGrid.covers_iff (grid : TileGrid Tile) (width height : Nat) (kind : LayerKind) :
    ((grid.rows = Tile.count height ∧ grid.columns = Tile.count width ∧
      grid.tiles.size = grid.rows * grid.columns) ∧
      ∀ row < grid.rows, ∀ column < grid.columns, ∀ tile ∈ grid.get? row column,
        tile.width = Tile.extent column width ∧ tile.height = Tile.extent row height ∧
          tile.pixels.Complete kind (tile.width * tile.height)) ↔
      grid.Covers width height kind := by
  refine ⟨fun ⟨⟨hrows, hcolumns, hsize⟩, h⟩ => ?_, fun h => ?_⟩
  · -- What is asked of tiles is asked of places inside only.
    refine ⟨hrows, hcolumns, hsize, ?_, ?_, ?_⟩
    all_goals
      intro row column tile htile
      obtain ⟨hrow, hcolumn⟩ := lt_of_get? htile
      have htile := h row hrow column hcolumn tile htile
    · exact htile.1
    · exact htile.2.1
    · exact htile.2.2
  · exact ⟨⟨h.rows_eq, h.columns_eq, h.size_eq⟩, fun row _ column _ tile htile =>
      ⟨h.tile_width htile, h.tile_height htile, h.complete htile⟩⟩

instance (grid : TileGrid Tile) (width height : Nat) (kind : LayerKind) :
    Decidable (grid.Covers width height kind) :=
  decidable_of_iff _ (grid.covers_iff width height kind)

theorem Layer.wellShaped_iff (layer : Layer) :
    (layer.tiles.Covers layer.width layer.height layer.kind ∧
      ∀ mask ∈ layer.mask, mask.tiles.Covers layer.width layer.height .gray) ↔ layer.WellShaped :=
  ⟨fun h => ⟨h.1, h.2⟩, fun h => ⟨h.covers, h.mask_covers⟩⟩

instance (layer : Layer) : Decidable layer.WellShaped := decidable_of_iff _ layer.wellShaped_iff

/-! ### Places in a tile -/

namespace Tile

variable {tile : Tile} {kind : LayerKind}

/-- A complete tile has a texel for each of its pixels. -/
theorem exists_texel? (h : tile.pixels.Complete kind (tile.width * tile.height)) {i : Nat}
    (hi : i < tile.width * tile.height) : ∃ texel, tile.texel? i = some texel := by
  obtain ⟨w, t, pixels⟩ := tile
  cases pixels with
  | color pixels =>
    have hlt : i < pixels.size := h.2.symm ▸ hi
    refine ⟨.color pixels[i], ?_⟩
    change (pixels[i]?).map Texel.color = _
    rw [Array.getElem?_eq_getElem hlt, Option.map_some]
  | level levels =>
    have hlt : i < levels.size := h.2.symm ▸ hi
    refine ⟨.level levels[i], ?_⟩
    change (levels[i]?).map Texel.level = _
    rw [Array.getElem?_eq_getElem hlt, Option.map_some]
  | levelAlpha levels alphas =>
    -- Levels and alphas come in arrays of the same size.
    have hlevel : i < levels.size := h.2.1.symm ▸ hi
    have halpha : i < alphas.size := h.2.2.symm ▸ hi
    refine ⟨.levelAlpha levels[i] alphas[i], ?_⟩
    simp only [texel?, Array.getElem?_eq_getElem hlevel, Array.getElem?_eq_getElem halpha]

/-- The place of a pixel, counted row by row, is within the rectangle. -/
theorem place_lt {w h k l : Nat} (hk : k < w) (hl : l < h) : l * w + k < w * h := by
  calc l * w + k < l * w + w := by omega
    _ = (l + 1) * w := by rw [Nat.succ_mul]
    _ ≤ h * w := Nat.mul_le_mul_right _ hl
    _ = w * h := Nat.mul_comm _ _

/-- The tiles of a length are those whose place times the side is inside it. -/
theorem lt_count_iff {index length : Nat} : index < count length ↔ index * side < length := by
  unfold count side
  omega

/-- The pixel of a raster is within the tile that it falls on. -/
theorem mod_lt_extent {x length : Nat} (hx : x < length) : x % side < extent (x / side) length := by
  unfold extent side
  omega

theorem div_lt_count {x length : Nat} (hx : x < length) : x / side < count length := by
  rw [lt_count_iff]
  unfold side
  omega

/-- The positions that a tile holds are those of its length that fall on it. -/
theorem sub_lt_extent_iff (x : Int) (index length : Nat) :
    (0 ≤ x - index * side ∧ x - index * side < extent index length) ↔
      (0 ≤ x ∧ x < length) ∧ x.toNat / side = index := by
  unfold extent side
  omega

end Tile

/-! ### Positions in a grid -/

namespace TileGrid

variable {α : Type}

/-- The pixel at a position of the raster that a grid covers. -/
def texelAt? (grid : TileGrid Tile) (x y : Nat) : Option Texel :=
  (grid.get? (y / Tile.side) (x / Tile.side)).bind fun tile =>
    tile.texel? (y % Tile.side * tile.width + x % Tile.side)

/-- From a place that is counted row by row the row can be found again. -/
theorem place_div {row column columns : Nat} (h : column < columns) :
    (row * columns + column) / columns = row := by
  rw [Nat.mul_comm, Nat.mul_add_div (by omega), Nat.div_eq_of_lt h, Nat.add_zero]

theorem place_mod {row column columns : Nat} (h : column < columns) :
    (row * columns + column) % columns = column :=
  Nat.mul_add_mod_of_lt h

/-- What lies at a place of the row by row order. -/
theorem get?_div_mod {grid : TileGrid α} (hsize : grid.tiles.size = grid.rows * grid.columns)
    {i : Nat} (hi : i < grid.tiles.size) :
    grid.get? (i / grid.columns) (i % grid.columns) = grid.tiles[i]? := by
  -- A grid that holds anything has a column.
  have hpos : 0 < grid.columns := by
    rcases Nat.eq_zero_or_pos grid.columns with h | h
    · rw [hsize, h] at hi
      omega
    · exact h
  have hrow : i / grid.columns < grid.rows :=
    Nat.div_lt_of_lt_mul (by rw [Nat.mul_comm, ← hsize]; exact hi)
  unfold get?
  rw [if_pos ⟨hrow, Nat.mod_lt _ hpos⟩, Nat.div_add_mod']

/-- Everything in a grid lies at the row and the column of its number. -/
theorem get?_of_mem_zipIdx {grid : TileGrid α} (hsize : grid.tiles.size = grid.rows * grid.columns)
    {a : α} {i : Nat} (hmem : (a, i) ∈ grid.tiles.toList.zipIdx) :
    grid.get? (i / grid.columns) (i % grid.columns) = some a := by
  have hi : grid.tiles[i]? = some a := by
    rw [← Array.getElem?_toList]
    exact List.mk_mem_zipIdx_iff_getElem?.mp hmem
  obtain ⟨hlt, -⟩ := Array.getElem?_eq_some_iff.mp hi
  rw [get?_div_mod hsize hlt, hi]

theorem mem_of_get? {grid : TileGrid α} {row column : Nat} {a : α}
    (h : grid.get? row column = some a) : a ∈ grid.tiles := by
  unfold get? at h
  split at h
  · exact Array.mem_of_getElem? h
  · cases h

/-- Each of the tiles is at some place. -/
theorem exists_get?_of_mem {grid : TileGrid α} (hsize : grid.tiles.size = grid.rows * grid.columns)
    {a : α} (h : a ∈ grid.tiles) : ∃ row column, grid.get? row column = some a := by
  obtain ⟨i, hi⟩ := Array.mem_iff_getElem?.mp h
  obtain ⟨hlt, -⟩ := Array.getElem?_eq_some_iff.mp hi
  exact ⟨_, _, (get?_div_mod hsize hlt).trans hi⟩

theorem exists_get? {grid : TileGrid α} (hsize : grid.tiles.size = grid.rows * grid.columns)
    {row column : Nat} (hrow : row < grid.rows) (hcolumn : column < grid.columns) :
    ∃ a, grid.get? row column = some a := by
  have hlt : row * grid.columns + column < grid.tiles.size := by
    rw [hsize, Nat.mul_comm grid.rows]
    exact Tile.place_lt hcolumn hrow
  unfold get?
  rw [if_pos ⟨hrow, hcolumn⟩]
  exact ⟨_, Array.getElem?_eq_getElem hlt⟩

namespace Covers

variable {grid : TileGrid Tile} {width height : Nat} {kind : LayerKind}

/-- Every position inside falls on a tile, at a place inside that tile. -/
theorem exists_tile (h : grid.Covers width height kind) {x y : Nat} (hx : x < width)
    (hy : y < height) :
    ∃ tile, grid.get? (y / Tile.side) (x / Tile.side) = some tile ∧
      x % Tile.side < tile.width ∧ y % Tile.side < tile.height := by
  -- The position falls on one of the tiles, as the grid has enough of them.
  obtain ⟨tile, htile⟩ := exists_get? h.size_eq (h.rows_eq ▸ Tile.div_lt_count hy)
    (h.columns_eq ▸ Tile.div_lt_count hx)
  refine ⟨tile, htile, ?_, ?_⟩
  · rw [h.tile_width htile]
    exact Tile.mod_lt_extent hx
  · rw [h.tile_height htile]
    exact Tile.mod_lt_extent hy

/-- **Pixels of a covered raster.** Every position inside has one. -/
theorem exists_texel (h : grid.Covers width height kind) {x y : Nat} (hx : x < width)
    (hy : y < height) :
    ∃ texel, grid.texelAt? x y = some texel := by
  obtain ⟨tile, htile, hk, hl⟩ := h.exists_tile hx hy
  obtain ⟨texel, htexel⟩ := Tile.exists_texel? (h.complete htile) (Tile.place_lt hk hl)
  exact ⟨texel, by rw [texelAt?, htile, Option.bind_some, htexel]⟩

end Covers

end TileGrid

/-! ### Samples of a layer -/

/-- The mask's value at a position. -/
def Mask.valueAt? (mask : Mask) (x y : Nat) : Option UInt8 :=
  (mask.tiles.texelAt? x y).map Texel.value

namespace Layer

/-- What compositing sees of the layer at one of the layer's own positions: the pixel stored there,
and what the mask holds at the same place of the same tile. -/
def sampleAt? (layer : Layer) (x y : Nat) : Option Sample :=
  (layer.tiles.get? (y / Tile.side) (x / Tile.side)).bind fun tile =>
    let i := y % Tile.side * tile.width + x % Tile.side
    (tile.texel? i).map fun texel => ⟨texel, layer.maskValue? (y / Tile.side) (x / Tile.side) i⟩

/-- The layer's column under a column of the canvas, where there is one. -/
def columnAt (layer : Layer) (x : Nat) : Nat := ((x : Int) - layer.props.xOffset).toNat

/-- The layer's row under a row of the canvas, where there is one. -/
def rowAt (layer : Layer) (y : Nat) : Nat := ((y : Int) - layer.props.yOffset).toNat

/-- Whether the layer, placed on a canvas, lies over a position of the canvas. -/
def LiesOver (layer : Layer) (x y : Nat) : Prop :=
  (0 ≤ (x : Int) - layer.props.xOffset ∧ (x : Int) - layer.props.xOffset < layer.width) ∧
    0 ≤ (y : Int) - layer.props.yOffset ∧ (y : Int) - layer.props.yOffset < layer.height

instance (layer : Layer) (x y : Nat) : Decidable (layer.LiesOver x y) :=
  inferInstanceAs (Decidable (_ ∧ _))

theorem LiesOver.columnAt_lt {layer : Layer} {x y : Nat} (h : layer.LiesOver x y) :
    layer.columnAt x < layer.width := by
  unfold LiesOver at h
  unfold columnAt
  omega

theorem LiesOver.rowAt_lt {layer : Layer} {x y : Nat} (h : layer.LiesOver x y) :
    layer.rowAt y < layer.height := by
  unfold LiesOver at h
  unfold rowAt
  omega

/-- What compositing sees of the layer at a position of the canvas it is placed on. -/
def landing? (layer : Layer) (x y : Nat) : Option Sample :=
  if layer.LiesOver x y then layer.sampleAt? (layer.columnAt x) (layer.rowAt y) else none

/-- The mask's value at a position, if the mask applies. -/
def maskAt? (layer : Layer) (x y : Nat) : Option UInt8 :=
  if layer.maskApplies then layer.mask.bind fun mask => mask.valueAt? x y else none

variable {layer : Layer}

/-- **Masks stay aligned.** In a well-shaped layer the sample at a position is the pixel there
beside the mask's value there, each found in a grid of its own. -/
theorem WellShaped.sampleAt?_eq (h : layer.WellShaped) {x y : Nat} (hx : x < layer.width)
    (hy : y < layer.height) :
    layer.sampleAt? x y =
      (layer.tiles.texelAt? x y).map fun texel => ⟨texel, layer.maskAt? x y⟩ := by
  obtain ⟨tile, htile, -, -⟩ := h.covers.exists_tile hx hy
  -- The mask's tile at that place is as wide as the layer's, so a number is the same place in both.
  have hmask : layer.maskValue? (y / Tile.side) (x / Tile.side)
      (y % Tile.side * tile.width + x % Tile.side) = layer.maskAt? x y := by
    unfold maskValue? maskTile? maskAt?
    by_cases happlies : layer.maskApplies
    · rw [if_pos happlies, if_pos happlies]
      cases hm : layer.mask with
      | none => rfl
      | some mask =>
        have hcovers := h.mask_covers mask hm
        obtain ⟨cut, hcut, -, -⟩ := hcovers.exists_tile hx hy
        have hwidth : tile.width = cut.width := by
          rw [h.covers.tile_width htile, hcovers.tile_width hcut]
        rw [Option.bind_some, Option.bind_some, Mask.valueAt?, TileGrid.texelAt?, hcut, hwidth]
        rfl
    · rw [if_neg happlies, if_neg happlies]
      rfl
  rw [sampleAt?, TileGrid.texelAt?, htile, Option.bind_some, Option.bind_some]
  simp only [hmask]

/-- **Samples of a well-shaped layer.** Every position inside has one, with the pixel that is stored
there. -/
theorem WellShaped.exists_sample (h : layer.WellShaped) {x y : Nat} (hx : x < layer.width)
    (hy : y < layer.height) :
    ∃ texel, layer.tiles.texelAt? x y = some texel ∧
      layer.sampleAt? x y = some ⟨texel, layer.maskAt? x y⟩ := by
  obtain ⟨texel, htexel⟩ := h.covers.exists_texel hx hy
  exact ⟨texel, htexel, by rw [h.sampleAt?_eq hx hy, htexel]; rfl⟩

end Layer

/-! ### Opaque layers -/

/-- Nothing that is stored is less than opaque. -/
def TilePixels.Solid : TilePixels → Prop
  | .color pixels => ∀ pixel ∈ pixels, pixel.alpha = 255
  | .level _ => True
  | .levelAlpha _ alphas => ∀ alpha ∈ alphas, alpha = 255

instance : DecidablePred TilePixels.Solid
  | .color pixels => inferInstanceAs (Decidable (∀ pixel ∈ pixels, _))
  | .level _ => inferInstanceAs (Decidable True)
  | .levelAlpha _ alphas => inferInstanceAs (Decidable (∀ alpha ∈ alphas, _))

theorem TilePixels.Solid.alpha_eq {tile : Tile} (h : tile.pixels.Solid) {i : Nat} {texel : Texel}
    (htexel : tile.texel? i = some texel) : texel.alpha = 255 := by
  obtain ⟨width, height, pixels⟩ := tile
  cases pixels with
  | color pixels =>
    obtain ⟨pixel, hpixel, rfl⟩ := Option.map_eq_some_iff.mp htexel
    exact h pixel (Array.mem_of_getElem? hpixel)
  | level levels =>
    -- A level without alpha counts as opaque.
    obtain ⟨v, -, rfl⟩ := Option.map_eq_some_iff.mp htexel
    rfl
  | levelAlpha levels alphas =>
    unfold Tile.texel? at htexel
    dsimp only at htexel
    split at htexel
    · next v a hv ha =>
      cases htexel
      exact h a (Array.mem_of_getElem? ha)
    · cases htexel

/-- **Kinds without alpha.** Tiles of colours or gray levels without alpha are opaque, whatever
bytes they are put together from. -/
theorem Tile.solid_assemble {kind : LayerKind} (hkind : kind = .rgb ∨ kind = .gray)
    (width height : Nat) (data : Bytes) (stride paletteSize : Nat) :
    (assemble kind width height data stride paletteSize).pixels.Solid := by
  rcases hkind with rfl | rfl
  · intro pixel hpixel
    obtain ⟨i, rfl⟩ := Array.mem_ofFn.mp hpixel
    rfl
  · exact trivial

namespace Layer

/-- All pixels of a layer are opaque. -/
def Solid (layer : Layer) : Prop := ∀ tile ∈ layer.tiles.tiles, tile.pixels.Solid

instance (layer : Layer) : Decidable layer.Solid :=
  inferInstanceAs (Decidable (∀ tile ∈ layer.tiles.tiles, _))

/-- Layers of gray levels without alpha are opaque. -/
theorem WellShaped.solid_of_gray {layer : Layer} (h : layer.WellShaped)
    (hkind : layer.kind = .gray) : layer.Solid := by
  intro tile htile
  obtain ⟨row, column, hat⟩ := TileGrid.exists_get?_of_mem h.covers.size_eq htile
  have hcomplete := h.covers.complete hat
  rw [hkind] at hcomplete
  -- A complete tile of the plain gray kind holds levels and nothing else.
  cases hpixels : tile.pixels with
  | level levels => exact trivial
  | color pixels =>
    rw [hpixels] at hcomplete
    rcases hcomplete.1 with hrgb | hrgba
    · cases hrgb
    · cases hrgba
  | levelAlpha levels alphas =>
    rw [hpixels] at hcomplete
    rcases hcomplete.1 with hgray | hindexed
    · cases hgray
    · cases hindexed

theorem Solid.alpha_eq {layer : Layer} (h : layer.Solid) {x y : Nat} {texel : Texel}
    (htexel : layer.tiles.texelAt? x y = some texel) : texel.alpha = 255 := by
  obtain ⟨tile, htile, htexel⟩ := Option.bind_eq_some_iff.mp htexel
  exact (h tile (TileGrid.mem_of_get? htile)).alpha_eq htexel

end Layer

end XcfFlatten
