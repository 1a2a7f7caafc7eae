import XcfFlatten.Color
import XcfFlatten.Layer.Kind

/-!
# Tiles

Layers are stored in tiles of at most 64 by 64 pixels. `Tile.assemble` puts a tile together from
decoded channel bytes, and `Tile.texel?` reads one of its pixels.
-/

namespace XcfFlatten

/-- A sequence of bytes, such as a file or a part of one. -/
abbrev Bytes := Array UInt8

/-- The pixels of a tile, row by row. -/
inductive TilePixels where
  /-- Colours with alpha. -/
  | color (pixels : Array Pixel)
  /-- Gray levels, palette indices or mask values. -/
  | level (levels : Array UInt8)
  /-- Gray levels or palette indices, and their alphas beside them. -/
  | levelAlpha (levels alphas : Array UInt8)
  deriving DecidableEq

/-- A rectangle cut out of a layer or a mask. -/
structure Tile where
  width : Nat
  height : Nat
  pixels : TilePixels
  deriving DecidableEq

/-- One pixel of a tile. -/
inductive Texel where
  | color (pixel : Pixel)
  | level (level : UInt8)
  | levelAlpha (level alpha : UInt8)
  deriving DecidableEq, Repr

namespace Texel

/-- The gray level, palette index or mask value. A colour counts as its luma. -/
def value : Texel → UInt8
  | color pixel => pixel.color.luma
  | level v => v
  | levelAlpha v _ => v

/-- The stored alpha. Without one, a pixel is opaque. -/
def alpha : Texel → UInt8
  | color pixel => pixel.alpha
  | level _ => 255
  | levelAlpha _ a => a

end Texel

namespace Tile

/-- The width and height of a tile that no edge cuts. -/
def side : Nat := 64

/-- How many tiles it takes to cover a length. -/
def count (length : Nat) : Nat := (length + (side - 1)) / side

/-- How much of a length the tile at a place covers: a full side, except for what is left at the
end. -/
def extent (index length : Nat) : Nat := min (length - index * side) side

/-- Byte `channel` of the `i`-th pixel, where pixels are `stride` bytes apart. A channel past the
stride, or past the end of the data, has the given value. -/
def channelByte (data : Bytes) (stride i channel : Nat) (absent : UInt8) : UInt8 :=
  if channel < stride then data.getD (i * stride + channel) absent else absent

/-- A palette index as stored in a tile: one without an entry in the palette becomes the first. -/
def checkedIndex (paletteSize : Nat) (index : UInt8) : UInt8 :=
  if index.toNat < paletteSize then index else 0

/-- Puts a tile of a layer together from its interleaved channel bytes, `stride` bytes to the pixel.
A missing colour channel is zero, a missing alpha opaque. -/
def assemble (kind : LayerKind) (width height : Nat) (data : Bytes) (stride paletteSize : Nat) :
    Tile :=
  let channel (i c : Nat) (absent : UInt8) := channelByte data stride i c absent
  let color (i : Nat) : Rgb := ⟨channel i 0 0, channel i 1 0, channel i 2 0⟩
  let plane (f : Nat → UInt8) : Array UInt8 := Array.ofFn fun i : Fin (width * height) => f i
  { width
    height
    pixels :=
      match kind with
      | .rgb => .color (Array.ofFn fun i : Fin (width * height) => (color i).solid)
      | .rgba => .color (Array.ofFn fun i : Fin (width * height) => ⟨color i, channel i 3 255⟩)
      | .gray => .level (plane fun i => channel i 0 0)
      | .indexed => .level (plane fun i => checkedIndex paletteSize (channel i 0 0))
      | .grayAlpha => .levelAlpha (plane fun i => channel i 0 0) (plane fun i => channel i 1 255)
      | .indexedAlpha =>
        .levelAlpha (plane fun i => checkedIndex paletteSize (channel i 0 0))
          (plane fun i => channel i 1 255) }

/-- Puts a tile of a mask together: the first byte of each pixel is its value, and a missing one is
zero. -/
def assembleMask (width height : Nat) (data : Bytes) (stride : Nat) : Tile where
  width
  height
  pixels := .level (Array.ofFn fun i : Fin (width * height) => data.getD (i * stride) 0)

/-- A tile of a layer for which nothing is stored: every byte is zero. -/
def blank (kind : LayerKind) (width height : Nat) : Tile :=
  assemble kind width height (Array.replicate (width * height * kind.channels) 0) kind.channels 0

/-- A tile of a mask for which nothing is stored. -/
def blankMask (width height : Nat) : Tile := assembleMask width height #[] 1

/-- The `i`-th pixel of a tile, row by row. -/
def texel? (tile : Tile) (i : Nat) : Option Texel :=
  match tile.pixels with
  | .color pixels => pixels[i]?.map .color
  | .level levels => levels[i]?.map .level
  | .levelAlpha levels alphas =>
    match levels[i]?, alphas[i]? with
    | some v, some a => some (.levelAlpha v a)
    | _, _ => none

end Tile

end XcfFlatten
