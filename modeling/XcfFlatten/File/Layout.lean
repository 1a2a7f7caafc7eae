import XcfFlatten.File.Compression
import XcfFlatten.File.PropertyTag
import XcfFlatten.Tile.Cut

/-!
# The layout of files

How the parts of a file are written as bytes. Numbers are big endian, and the file's version decides
how wide offsets are. Offsets count from the beginning of the file, so whatever holds some is laid
out at a given place.

* `Layout.word`, `Layout.offset`, `Layout.string` and `Layout.record` are the scalars of the format
  and its property records;
* `Layout.tile` is a tile, its bytes as they are or as literal runs;
* `Layout.hierarchy` is the pixel hierarchy of a raster.
-/

namespace XcfFlatten.Layout

/-- A number in so many bytes, the most significant first. -/
def number : (width : Nat) → Nat → List UInt8
  | 0, _ => []
  | width + 1, n => number width (n / 256) ++ [UInt8.ofNat n]

/-- A number in 32 bits. -/
def word (n : Nat) : List UInt8 := number 4 n

/-- How many bytes an offset takes. -/
def offsetWidth (version : Nat) : Nat := if 11 ≤ version then 8 else 4

/-- An offset. -/
def offset (version n : Nat) : List UInt8 := number (offsetWidth version) n

/-- A string: its length, in which the NUL at its end counts, and its bytes. -/
def string (text : List UInt8) : List UInt8 := word (text.length + 1) ++ text ++ [0]

/-! ### Property records -/

/-- A property record. -/
def record (tag : PropertyTag) (payload : List UInt8) : List UInt8 :=
  word tag.code ++ word payload.length ++ payload

/-- The record that ends a property list. -/
def terminator : List UInt8 := record .terminator []

/-- A colour map. The size it claims counts a byte for each colour instead of three. -/
def colormap (palette : Palette) : List UInt8 :=
  word PropertyTag.colormap.code ++ word (palette.size + 4) ++
    (word palette.size ++ palette.toList.flatMap fun c => [c.red, c.green, c.blue])

/-! ### Tiles -/

/-- Byte `channel` of each of `count` pixels, `channels` bytes to the pixel. -/
def plane (bytes : Bytes) (count channels channel : Nat) : List UInt8 :=
  (List.range count).map fun i => bytes.getD (i * channels + channel) 0

/-- Bytes in pieces of `size`, the last of which may be shorter. -/
def chunks (size : Nat) (bytes : List UInt8) : List (List UInt8) :=
  (List.range ((bytes.length + (size - 1)) / size)).map fun i => (bytes.drop (size * i)).take size

/-- A literal run of at most 127 bytes. -/
def literalRun (bytes : List UInt8) : List UInt8 := UInt8.ofNat (256 - bytes.length) :: bytes

/-- Bytes as literal runs, each as long as it may be. -/
def literalRuns (bytes : List UInt8) : List UInt8 := (chunks 127 bytes).flatMap literalRun

/-- A tile of `count` pixels: run length encoded channel by channel, or its bytes as they are. -/
def tile (compression : Compression) (count channels : Nat) (bytes : Bytes) : List UInt8 :=
  match compression with
  | .rle => (List.range channels).flatMap fun c => literalRuns (plane bytes count channels c)
  | .none | .zlib | .fractal => bytes.toList

/-- The tiles of a raster of interleaved pixels, row by row. -/
def tiles (compression : Compression) (width height channels : Nat) (data : Bytes) :
    List (List UInt8) :=
  (List.range (Tile.count height)).flatMap fun row =>
    (List.range (Tile.count width)).map fun column =>
      let w := Tile.extent column width
      let h := Tile.extent row height
      tile compression (w * h) channels
        (cutBytes data width channels (column * Tile.side) (row * Tile.side) w h)

/-! ### Hierarchies -/

/-- Where tiles are, the first of them at a given place and each behind the one before, and a zero
that ends the table. -/
def tileTable (version : Nat) : (place : Nat) → List (List UInt8) → List UInt8
  | _, [] => offset version 0
  | place, tile :: tiles =>
    offset version place ++ tileTable version (place + tile.length) tiles

/-- A level at a given place: its size, the table of its tiles and the tiles. -/
def level (version place width height : Nat) (tiles : List (List UInt8)) : List UInt8 :=
  let first := place + 8 + (tiles.length + 1) * offsetWidth version
  word width ++ word height ++ tileTable version first tiles ++ tiles.flatten

/-- A hierarchy at a given place: size and depth of the raster, the list of levels, the level that
counts and an empty one behind it. -/
def hierarchy (version place width height channels : Nat) (tiles : List (List UInt8)) :
    List UInt8 :=
  let first := place + 12 + 3 * offsetWidth version
  let level := level version first width height tiles
  let second := first + level.length
  word width ++ word height ++ word channels ++
    (offset version first ++ offset version second ++ offset version 0) ++ level ++
    (word 1 ++ word 1 ++ offset version 0)

end XcfFlatten.Layout
