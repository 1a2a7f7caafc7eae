import Mathlib.Tactic.Ring
import XcfFlatten.File.Hierarchy
import XcfFlatten.Proofs.Dissolve.Position
import XcfFlatten.Tile.Cut

/-!
# Rasters and their tiles

A raster of interleaved pixels is cut into tiles (`TileGrid.cuts`), which have all of their bytes
(`TileGrid.fits_of_mem_cuts`). Putting the tiles together again gives the raster: the pixel of the grid
at a position is what the raster's bytes at this position stand for (`TileGrid.texelAt?_cut`), as
`TileContent.texel` says without regard to tiles.
-/

namespace XcfFlatten

/-! ### Cut rasters -/

/-- A tile's size and its bytes. -/
structure CutTile where
  width : Nat
  height : Nat
  bytes : Bytes
  deriving DecidableEq

/-- A tile of no more than the usual size that has all of its bytes. -/
structure CutTile.Fits (channels : Nat) (tile : CutTile) : Prop where
  width_pos : 0 < tile.width
  height_pos : 0 < tile.height
  width_le : tile.width ≤ Tile.side
  height_le : tile.height ≤ Tile.side
  size_eq : tile.bytes.size = tile.width * tile.height * channels

/-- The tiles of a raster of interleaved pixels, row by row. -/
def TileGrid.cuts (width height channels : Nat) (data : Bytes) : List CutTile :=
  (List.range (Tile.count height)).flatMap fun row =>
    (List.range (Tile.count width)).map fun column =>
      let w := Tile.extent column width
      let h := Tile.extent row height
      ⟨w, h, cutBytes data width channels (column * Tile.side) (row * Tile.side) w h⟩

section

variable (width height channels : Nat) (data : Bytes)

/-- The sizes the level reader asks for are those of the cut tiles, in the same order. -/
theorem Hierarchy.tileSizes_eq_map_cuts : tileSizes width height =
    (TileGrid.cuts width height channels data).map fun tile => (tile.width, tile.height) := by
  rw [TileGrid.cuts, List.map_flatMap]
  simp only [List.map_map]
  rfl

/-- Cutting a raster is assembling each of the cut tiles, row by row. -/
theorem TileGrid.cut_eq (assemble : Nat → Nat → Bytes → Tile) :
    cut width height channels data assemble =
      ⟨Tile.count height, Tile.count width,
        ((cuts width height channels data).map fun t =>
          assemble t.width t.height t.bytes).toArray⟩ := by
  rw [cuts, List.map_flatMap]
  simp only [List.map_map]
  rfl

end

section

variable {data : Bytes} {rasterWidth rasterHeight channels x y width height : Nat}

/-- A rectangle is cut out row by row. -/
theorem cutBytes_succ (data : Bytes) (rasterWidth channels x y width height : Nat) :
    cutBytes data rasterWidth channels x y width (height + 1) =
      cutBytes data rasterWidth channels x y width height ++
        data.extract (((y + height) * rasterWidth + x) * channels)
          (((y + height) * rasterWidth + x) * channels + width * channels) := by
  unfold cutBytes
  rw [List.range_succ, List.foldl_append]
  rfl

/-- Rows of a rectangle inside a raster end inside it. -/
theorem row_le_size (hdata : data.size = rasterWidth * rasterHeight * channels)
    (hx : x + width ≤ rasterWidth) {l : Nat} (hl : y + l < rasterHeight) :
    ((y + l) * rasterWidth + x) * channels + width * channels ≤ data.size := by
  calc ((y + l) * rasterWidth + x) * channels + width * channels
      = ((y + l) * rasterWidth + (x + width)) * channels := by ring
    _ ≤ ((y + l) * rasterWidth + rasterWidth) * channels :=
      Nat.mul_le_mul_right _ (Nat.add_le_add_left hx _)
    _ = (y + l + 1) * rasterWidth * channels := by ring
    _ ≤ rasterHeight * rasterWidth * channels :=
      Nat.mul_le_mul_right _ (Nat.mul_le_mul_right _ hl)
    _ = data.size := by rw [hdata, Nat.mul_comm rasterHeight]

/-- A rectangle inside a raster is cut out whole. -/
theorem size_cutBytes (hdata : data.size = rasterWidth * rasterHeight * channels)
    (hx : x + width ≤ rasterWidth) (hy : y + height ≤ rasterHeight) :
    (cutBytes data rasterWidth channels x y width height).size = width * height * channels := by
  -- By induction on the rows: each adds as many bytes as it has.
  induction height with
  | zero =>
    rw [Nat.mul_zero, Nat.zero_mul]
    rfl
  | succ h ih =>
    rw [cutBytes_succ, Array.size_append, ih (by omega), Array.size_extract,
      Nat.min_eq_left (row_le_size hdata hx (by omega)), Nat.add_sub_cancel_left]
    ring

/-- The bytes of a pixel of a rectangle are those of the raster there. -/
theorem getElem?_cutBytes (hdata : data.size = rasterWidth * rasterHeight * channels)
    (hx : x + width ≤ rasterWidth) (hy : y + height ≤ rasterHeight) {k l c : Nat} (hk : k < width)
    (hl : l < height) (hc : c < channels) :
    (cutBytes data rasterWidth channels x y width height)[(l * width + k) * channels + c]? =
      data[((y + l) * rasterWidth + (x + k)) * channels + c]? := by
  have hplace : k * channels + c < width * channels := by
    rw [Nat.mul_comm width]
    exact Tile.place_lt hc hk
  induction height with
  | zero => cases hl
  | succ h ih =>
    have hsize : (cutBytes data rasterWidth channels x y width h).size = width * channels * h := by
      rw [size_cutBytes hdata hx (by omega)]
      ring
    have hindex : (l * width + k) * channels + c = l * (width * channels) + (k * channels + c) := by
      ring
    rw [cutBytes_succ]
    -- The pixel is in one of the first rows, or in the row just added.
    rcases Nat.lt_or_ge l h with hlt | hge
    · rw [Array.getElem?_append_left (by rw [hindex, hsize]; exact Tile.place_lt hplace hlt)]
      exact ih (by omega) hlt
    · obtain rfl : l = h := by omega
      have hinside := row_le_size hdata hx (y := y) (l := l) (by omega)
      rw [hindex, Nat.mul_comm l, ← hsize, Array.getElem?_append_right (Nat.le_add_right _ _),
        Nat.add_sub_cancel_left, Array.getElem?_extract, if_pos (by omega)]
      congr 1
      ring

end

namespace TileGrid

/-- Each cut tile is neither empty nor larger than a tile may be, and holds all its bytes. -/
theorem fits_of_mem_cuts {width height channels : Nat} {data : Bytes}
    (hdata : data.size = width * height * channels) {tile : CutTile}
    (h : tile ∈ cuts width height channels data) : tile.Fits channels := by
  obtain ⟨row, hrow, h⟩ := List.mem_flatMap.mp h
  obtain ⟨column, hcolumn, rfl⟩ := List.mem_map.mp h
  -- A place within the grid leaves at least one column and one row of pixels.
  have hbelow := Tile.lt_count_iff.mp (List.mem_range.mp hrow)
  have hright := Tile.lt_count_iff.mp (List.mem_range.mp hcolumn)
  have hside : 0 < Tile.side := by decide
  refine ⟨?_, ?_, Nat.min_le_right _ _, Nat.min_le_right _ _, size_cutBytes hdata ?_ ?_⟩
  · exact Nat.lt_min.mpr ⟨Nat.sub_pos_of_lt hright, hside⟩
  · exact Nat.lt_min.mpr ⟨Nat.sub_pos_of_lt hbelow, hside⟩
  · unfold Tile.extent
    omega
  · unfold Tile.extent
    omega

end TileGrid

/-! ### Pixels -/

/-- The pixel that a number of bytes stands for, one for each channel that is stored. A colour without
a byte of its own is zero, and an alpha is opaque. -/
def TileContent.texel (content : TileContent) (bytes : List UInt8) : Texel :=
  let color : Rgb := ⟨bytes.getD 0 0, bytes.getD 1 0, bytes.getD 2 0⟩
  let level := bytes.getD 0 0
  match content with
  | layer .rgb _ => .color color.solid
  | layer .rgba _ => .color ⟨color, bytes.getD 3 255⟩
  | layer .gray _ | mask => .level level
  | layer .grayAlpha _ => .levelAlpha level (bytes.getD 1 255)
  | layer .indexed size => .level (Tile.checkedIndex size level)
  | layer .indexedAlpha size => .levelAlpha (Tile.checkedIndex size level) (bytes.getD 1 255)

/-- The bytes of the `i`-th pixel of a raster. -/
def pixelBytes (data : Bytes) (channels i : Nat) : List UInt8 :=
  (data.extract (i * channels) (i * channels + channels)).toList

/-- The bytes of a pixel are its channels, and no more. -/
theorem getElem?_pixelBytes (data : Bytes) (channels i c : Nat) :
    (pixelBytes data channels i)[c]? = if c < channels then data[i * channels + c]? else none := by
  rw [pixelBytes, Array.getElem?_toList, Array.getElem?_extract]
  by_cases hc : c < channels
  · rw [if_pos hc]
    by_cases hin : i * channels + c < data.size
    · rw [if_pos (by omega)]
    · rw [if_neg (by omega), Array.getElem?_eq_none (Nat.not_lt.mp hin)]
  · rw [if_neg hc, if_neg (by omega)]

/-- A tile reads its channels off the bytes of its pixels. -/
theorem Tile.channelByte_eq (data : Bytes) (stride i channel : Nat) (absent : UInt8) :
    channelByte data stride i channel absent =
      (pixelBytes data stride i).getD channel absent := by
  rw [List.getD_eq_getElem?_getD, getElem?_pixelBytes, channelByte]
  split
  · rw [Array.getD_eq_getD_getElem?]
  · rfl

/-- The pixels of a tile are those that its bytes stand for. -/
theorem TileContent.texel?_assemble (content : TileContent) {width height stride i : Nat}
    (data : Bytes) (hstride : 0 < stride) (hi : i < width * height) :
    (content.assemble width height data stride).texel? i =
      some (content.texel (pixelBytes data stride i)) := by
  cases content with
  | mask =>
    have hvalue : data.getD (i * stride) 0 = (pixelBytes data stride i).getD 0 0 := by
      rw [← Tile.channelByte_eq, Tile.channelByte, if_pos hstride, Nat.add_zero]
    -- A mask reads the first byte of the pixel, whatever the stride is.
    change ((Array.ofFn _)[i]?).map Texel.level = _
    rw [Array.getElem?_ofFn, dif_pos hi, texel, ← hvalue]
    rfl
  | layer kind size =>
    -- A layer reads one byte for each channel of its kind.
    cases kind <;>
      simp only [assemble, Tile.assemble, Tile.texel?, texel, Tile.channelByte_eq,
        Array.getElem?_ofFn, hi, dif_pos, Option.map_some]

namespace TileGrid

variable {width height channels : Nat} {data : Bytes}

/-- The tile in a place of the cut raster is assembled from the bytes below that place. -/
theorem get?_cut (assemble : Nat → Nat → Bytes → Tile) {row column : Nat}
    (hrow : row < Tile.count height) (hcolumn : column < Tile.count width) :
    (cut width height channels data assemble).get? row column =
      some (assemble (Tile.extent column width) (Tile.extent row height)
        (cutBytes data width channels (column * Tile.side) (row * Tile.side)
          (Tile.extent column width) (Tile.extent row height))) := by
  have hplaces : (cut width height channels data assemble).rows = Tile.count height ∧
      (cut width height channels data assemble).columns = Tile.count width := ⟨rfl, rfl⟩
  -- The tiles are lined up row by row, all rows of the same length.
  rw [get?, hplaces.1, hplaces.2, if_pos ⟨hrow, hcolumn⟩, cut, List.getElem?_toArray,
    Dissolve.getElem?_flatMap_lines _ (fun row => by rw [List.length_map, List.length_range]) hcolumn
      hrow, List.getElem?_map, List.getElem?_range hcolumn]
  rfl

/-- The bytes of a pixel in its tile are its bytes in the raster. -/
theorem pixelBytes_cutBytes (hdata : data.size = width * height * channels) {x y : Nat}
    (hx : x < width) (hy : y < height) :
    pixelBytes (cutBytes data width channels (x / Tile.side * Tile.side)
        (y / Tile.side * Tile.side) (Tile.extent (x / Tile.side) width)
        (Tile.extent (y / Tile.side) height)) channels
      (y % Tile.side * Tile.extent (x / Tile.side) width + x % Tile.side) =
      pixelBytes data channels (y * width + x) := by
  -- The tile that holds the pixel lies within the raster.
  have hright : x / Tile.side * Tile.side + Tile.extent (x / Tile.side) width ≤ width := by
    unfold Tile.extent Tile.side
    omega
  have hbelow : y / Tile.side * Tile.side + Tile.extent (y / Tile.side) height ≤ height := by
    unfold Tile.extent Tile.side
    omega
  apply List.ext_getElem?
  intro c
  rw [getElem?_pixelBytes, getElem?_pixelBytes]
  split
  · next hc =>
    rw [getElem?_cutBytes hdata hright hbelow (Tile.mod_lt_extent hx) (Tile.mod_lt_extent hy) hc,
      Nat.div_add_mod', Nat.div_add_mod']
  · rfl

/-- **Rasters cut into tiles.** The pixel of the grid at a position is what the raster's bytes at this
position stand for. -/
theorem texelAt?_cut (content : TileContent) (hchannels : 0 < channels)
    (hdata : data.size = width * height * channels) {x y : Nat} (hx : x < width) (hy : y < height) :
    (cut width height channels data fun w h bytes => content.assemble w h bytes channels).texelAt?
      x y = some (content.texel (pixelBytes data channels (y * width + x))) := by
  have hwidth : ∀ w h bytes, (content.assemble w h bytes channels).width = w := by
    intro w h bytes
    cases content <;> rfl
  have hplace := Tile.place_lt (Tile.mod_lt_extent hx) (Tile.mod_lt_extent hy)
  rw [texelAt?, get?_cut _ (Tile.div_lt_count hy) (Tile.div_lt_count hx), Option.bind_some, hwidth,
    content.texel?_assemble _ hchannels hplace, pixelBytes_cutBytes hdata hx hy]

end TileGrid

end XcfFlatten
