import XcfFlatten.Tile.Grid

/-!
# Cutting rasters into tiles

`TileGrid.cut` cuts a raster of interleaved pixels along the tile grid.
-/

namespace XcfFlatten

/-- The bytes of a rectangle of a raster, row by row: `width` and `height` pixels from column `x`
and row `y` on, where the raster has `rasterWidth` pixels of `channels` bytes to the row. -/
def cutBytes (data : Bytes) (rasterWidth channels x y width height : Nat) : Bytes :=
  (List.range height).foldl
    (fun bytes l =>
      let start := ((y + l) * rasterWidth + x) * channels
      bytes ++ data.extract start (start + width * channels))
    #[]

/-- Cuts a raster of interleaved pixels, `channels` bytes to the pixel, into tiles. -/
def TileGrid.cut (width height channels : Nat) (data : Bytes)
    (assemble : Nat → Nat → Bytes → Tile) : TileGrid Tile where
  rows := Tile.count height
  columns := Tile.count width
  tiles :=
    ((List.range (Tile.count height)).flatMap fun row =>
      (List.range (Tile.count width)).map fun column =>
        let w := Tile.extent column width
        let h := Tile.extent row height
        assemble w h
          (cutBytes data width channels (column * Tile.side) (row * Tile.side) w h)).toArray

end XcfFlatten
