import XcfFlatten.Color
import XcfFlatten.Layer.Kind
import XcfFlatten.Raster

/-!
# Canvases

The image that layers are flattened onto. It holds either indices into a palette of its own or
colours, and its format follows from the lowest visible layer (`Canvas.forBase?`).
-/

namespace XcfFlatten

/-- The formats of a canvas that holds palette indices. -/
inductive PaletteFormat where
  | mono
  | indexed8
  /-- The palette is the gray ramp. -/
  | gray8
  deriving DecidableEq, Inhabited, Repr

/-- The format of a canvas. -/
inductive CanvasFormat where
  | palette (format : PaletteFormat)
  | color (hasAlpha : Bool)
  deriving DecidableEq, Inhabited, Repr

/-- The name shown to users. -/
def CanvasFormat.name : CanvasFormat → String
  | palette .mono => "1-bit indexed"
  | palette .indexed8 => "8-bit indexed"
  | palette .gray8 => "8-bit grayscale"
  | color false => "32-bit RGB"
  | color true => "32-bit RGBA"

/-- Whether layers of a kind can be composited onto a canvas of the format. -/
def CanvasFormat.accepts (format : CanvasFormat) (kind : LayerKind) : Bool :=
  match format with
  | color _ => true
  | palette .gray8 => kind.isGray
  | palette .mono => kind.isIndexed
  | palette .indexed8 => kind.isIndexed

/-- The image that layers are flattened onto. -/
inductive Canvas where
  | indexed (format : PaletteFormat) (palette : Array Pixel) (cells : Raster UInt8)
  | color (hasAlpha : Bool) (cells : Raster Pixel)

namespace Canvas

/-- The entry of a canvas palette. An index without an entry shows the zero pixel. -/
def entry (palette : Array Pixel) (index : UInt8) : Pixel := palette.getD index.toNat Pixel.zero

/-- What is left of an index written over another: indices without an entry in the palette are not
written. -/
def writeIndex (palette : Array Pixel) (index below : UInt8) : UInt8 :=
  if index.toNat < palette.size then index else below

/-- What is left of a written pixel: a canvas without alpha keeps every pixel opaque. -/
def writePixel (hasAlpha : Bool) (pixel : Pixel) : Pixel :=
  if hasAlpha then pixel else pixel.color.solid

/-- The canvas of colours that is the same everywhere. -/
def filledColor (width height : Nat) (hasAlpha : Bool) (fill : Pixel) : Canvas :=
  color hasAlpha (Raster.filled width height (writePixel hasAlpha fill))

/-- The canvas of palette indices that is the same everywhere. -/
def filledIndexed (width height : Nat) (format : PaletteFormat) (palette : Array Pixel)
    (fill : UInt8) : Canvas :=
  indexed format palette (Raster.filled width height fill)

/-- The canvas for a document whose lowest visible layer has the given kind and opacity.

Opaque layers without alpha get a canvas without alpha. The palette of an indexed layer with alpha
moves up by one to make room for a clear entry at index 0, and where there is no room the canvas
holds colours instead. There is none for an indexed layer without alpha whose palette has more than
256 colours. -/
def forBase? (width height : Nat) (kind : LayerKind) (opacity : UInt8) (palette : Palette) :
    Option Canvas :=
  let clear := filledColor width height true Pixel.clear
  match kind with
  | .rgb => some (if opacity = 255 then filledColor width height false Pixel.white else clear)
  | .rgba | .grayAlpha => some clear
  | .gray => some (if opacity = 255 then filledIndexed width height .gray8 grayRamp 255 else clear)
  | .indexed =>
    if palette.size ≤ 256 then
      let format := if palette.size ≤ 2 then PaletteFormat.mono else .indexed8
      some (filledIndexed width height format (palette.map Rgb.solid) 0)
    else none
  | .indexedAlpha =>
    if palette.size < 256 then
      let format := if palette.size = 1 then PaletteFormat.mono else .indexed8
      some (filledIndexed width height format (#[Pixel.clear] ++ palette.map Rgb.solid) 0)
    else some clear

/-- The canvas's format. -/
def format : Canvas → CanvasFormat
  | indexed format _ _ => .palette format
  | color hasAlpha _ => .color hasAlpha

/-- The canvas's width. -/
def width : Canvas → Nat
  | indexed _ _ cells => cells.width
  | color _ cells => cells.width

/-- The canvas's height. -/
def height : Canvas → Nat
  | indexed _ _ cells => cells.height
  | color _ cells => cells.height

/-- The palette of the canvas, which is empty on a canvas of colours. -/
def palette : Canvas → Array Pixel
  | indexed _ palette _ => palette
  | color _ _ => #[]

/-- Whether layers of a kind can be composited onto the canvas. -/
def accepts (canvas : Canvas) (kind : LayerKind) : Bool := canvas.format.accepts kind

/-- The index at a position, or the luma of the colour there. -/
def indexAt? (canvas : Canvas) (x y : Nat) : Option UInt8 :=
  match canvas with
  | indexed _ _ cells => cells.get? x y
  | color _ cells => (cells.get? x y).map fun p => p.color.luma

/-- The colour at a position. -/
def colorAt? (canvas : Canvas) (x y : Nat) : Option Pixel :=
  match canvas with
  | indexed _ palette cells => (cells.get? x y).map (entry palette)
  | color _ cells => cells.get? x y

/-- Writes a palette index. A canvas of colours has no palette and stays as it is. -/
def setIndex (canvas : Canvas) (x y : Nat) (index : UInt8) : Canvas :=
  match canvas with
  | indexed format palette cells =>
    indexed format palette (cells.modify x y (writeIndex palette index))
  | color hasAlpha cells => color hasAlpha cells

/-- Writes a pixel. A canvas of palette indices stays as it is. -/
def setColor (canvas : Canvas) (x y : Nat) (pixel : Pixel) : Canvas :=
  match canvas with
  | indexed format palette cells => indexed format palette cells
  | color hasAlpha cells => color hasAlpha (cells.modify x y fun _ => writePixel hasAlpha pixel)

/-- The canvas with its palette resolved. -/
def pixels : Canvas → Raster Pixel
  | indexed _ palette cells => cells.map (entry palette)
  | color _ cells => cells

end Canvas

end XcfFlatten
