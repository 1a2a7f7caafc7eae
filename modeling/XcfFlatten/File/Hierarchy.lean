import XcfFlatten.File.Limits
import XcfFlatten.File.Reader
import XcfFlatten.File.RunLength
import XcfFlatten.Tile.Grid

/-!
# Pixel hierarchies

The pixels of a layer or a mask are stored as a hierarchy: a depth in bytes per pixel and a list of
levels, each half the size of the one before. Only the first level is of interest. It is a table of
offsets, one for each tile, ended by a zero; where the next tile begins bounds the data of a run
length encoded one.

`readHierarchy` reads the tiles. What they look like follows from what the hierarchy holds
(`TileContent`); the stored depth only says how far apart the pixels are. How the bytes of a run
length encoded tile are read is a parameter (`Window`), as a file may end in them.
-/

namespace XcfFlatten

/-- What a hierarchy holds. -/
inductive TileContent where
  /-- The pixels of a layer in a document with a palette of the given size. -/
  | layer (kind : LayerKind) (paletteSize : Nat)
  | mask
  deriving DecidableEq

namespace TileContent

/-- Puts a tile together from its bytes, `stride` to the pixel. -/
def assemble (content : TileContent) (width height : Nat) (data : Bytes) (stride : Nat) : Tile :=
  match content with
  | layer kind paletteSize => Tile.assemble kind width height data stride paletteSize
  | mask => Tile.assembleMask width height data stride

/-- A tile for which nothing is stored. -/
def blank (content : TileContent) (width height : Nat) : Tile :=
  match content with
  | layer kind _ => Tile.blank kind width height
  | mask => Tile.blankMask width height

end TileContent

/-- A way to read the next so many bytes, and to say how many there were. -/
abbrev Window := Nat → Reader (Bytes × Nat)

namespace Hierarchy

/-- The longest plausible data of a tile: four channels without compression, and half as much again
for the worst that run lengths can do. -/
def maxTileLength : Nat := Tile.side * Tile.side * 4 * 3 / 2

/-- The widths and heights of the tiles of a raster, row by row. -/
def tileSizes (width height : Nat) : List (Nat × Nat) :=
  (List.range (Tile.count height)).flatMap fun row =>
    (List.range (Tile.count width)).map fun column =>
      (Tile.extent column width, Tile.extent row height)

/-- Reads a list of level offsets up to the zero that ends it, with at most `room` before it. -/
def skipLevels (limits : Limits) : (room : Nat) → Reader Unit
  | 0 => do if (← Reader.offset) ≠ 0 then throw (.tooManyLevels limits.maxLevels)
  | room + 1 => do if (← Reader.offset) ≠ 0 then skipLevels limits room

/-- Reads the data of a tile of `count` pixels, where the table of offsets goes on with `next`. The
end of the last tile is not stored. -/
def readTileData (window : Window) (compression : Compression)
    (count channels offset next : Nat) : Reader Bytes := do
  Reader.seek offset
  match compression with
  | .none => Reader.bytes (count * channels)
  | .rle =>
    let stop := if next = 0 then offset + maxTileLength else next
    if stop < offset ∨ maxTileLength < stop - offset then throw (.tileLength offset stop)
    let (data, found) ← window (stop - offset)
    if found = 0 ∧ offset < stop then throw .truncated
    match RunLength.decodeTile data count channels with
    | .ok bytes => pure bytes
    | .error error => throw (.runs error)
  | .zlib => throw (.tileCompression .zlib)
  | .fractal => throw (.tileCompression .fractal)

/-- Reads tiles of the given sizes, of which the first is stored at `offset`; the table of offsets
goes on at the reader's position. Before them come the tiles already read, out of `total` tiles. -/
def readTiles (window : Window) (content : TileContent) (compression : Compression)
    (channels total : Nat) :
    (offset : Nat) → (done : Array Tile) → List (Nat × Nat) → Reader (Array Tile)
  | _, done, [] => pure done
  | offset, done, (width, height) :: sizes => do
    if offset = 0 then throw (.missingTiles total done.size)
    let next ← Reader.offset
    let resume ← Reader.position
    let data ← readTileData window compression (width * height) channels offset next
    Reader.seek resume
    readTiles window content compression channels total next
      (done.push (content.assemble width height data channels))
      sizes

/-- Reads the level at the reader's position. A level without any tile is blank. -/
def readLevel (window : Window) (width height channels : Nat) (content : TileContent)
    (compression : Compression) : Reader (TileGrid Tile) := do
  let _ ← Reader.int32
  let _ ← Reader.int32
  let offset ← Reader.offset
  let sizes := tileSizes width height
  let tiles ←
    if offset = 0 then pure (sizes.map fun (w, h) => content.blank w h).toArray
    else readTiles window content compression channels sizes.length offset #[] sizes
  pure ⟨Tile.count height, Tile.count width, tiles⟩

end Hierarchy

/-- Reads the hierarchy at the reader's position for a raster of the given size, and goes on behind
its list of levels. -/
def readHierarchy (width height : Nat) (content : TileContent) (compression : Compression)
    (limits : Limits) (window : Window := Reader.bytesPadded) : Reader (TileGrid Tile) := do
  let _ ← Reader.int32
  let _ ← Reader.int32
  let channels ← Reader.word
  let level ← Reader.offset
  if channels = 0 ∨ 4 < channels then throw (.hierarchyDepth channels)
  -- The first level counts, and it is not in the list that follows.
  Hierarchy.skipLevels limits (limits.maxLevels - 1)
  let resume ← Reader.position
  Reader.seek level
  let grid ← Hierarchy.readLevel window width height channels content compression
  Reader.seek resume
  pure grid

end XcfFlatten
