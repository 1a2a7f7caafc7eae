import XcfFlatten.Blend.Alpha
import XcfFlatten.Blend.Channel
import XcfFlatten.Canvas
import XcfFlatten.Layer

/-!
# Flattening

Each layer changes the cells of the canvas that its pixels fall on, one by one. What a pixel does to
the cell below it depends on that pixel and that cell alone: the rules are `Layer.baseIndex` and
`Layer.basePixel` for the lowest layer and `Layer.mergedIndex` and `Layer.mergedPixel` for the
others, and `Raster.paint` applies a rule to every cell a layer covers.

* `Canvas.paintBase` puts the lowest visible layer onto a fresh canvas;
* `Canvas.mergeDown` composites a further layer onto what lies below.
-/

namespace XcfFlatten

/-- Palette indices cannot be mixed: a pixel shows if it is at least half opaque. -/
def shows (alpha : Nat) : Bool := 127 < alpha

/-- The index one up, where the palette of a canvas begins with a clear entry. -/
def raiseIndex (index : UInt8) : UInt8 := if index = 255 then 255 else index + 1

namespace Layer

/-- The effective alpha of a sample whose pixel has the given alpha. -/
def alphaOf (layer : Layer) (sample : Sample) (alpha : UInt8) : Nat :=
  effectiveAlpha layer.props.opacity sample.mask alpha

/-- The colour of a sample. -/
def colorOf (layer : Layer) (palette : Palette) (sample : Sample) : Rgb :=
  match sample.texel with
  | .color pixel => pixel.color
  | texel => if layer.kind.isIndexed then palette.lookup texel.value else Rgb.gray texel.value

/-! ### The lowest layer -/

/-- The index the lowest layer puts over the index `below`. Where an indexed layer with alpha does
not show, that is the clear entry. -/
def baseIndex (layer : Layer) (entries : Array Pixel) (sample : Sample) (below : UInt8) : UInt8 :=
  let index :=
    if layer.kind = .indexedAlpha then
      if shows (layer.alphaOf sample sample.texel.alpha) then raiseIndex sample.texel.value else 0
    else sample.texel.value
  Canvas.writeIndex entries index below

/-- The pixel the lowest layer puts on the canvas, whatever was there. -/
def basePixel (layer : Layer) (palette : Palette) (hasAlpha : Bool) (sample : Sample)
    (_below : Pixel) : Pixel :=
  let alpha := layer.alphaOf sample sample.texel.alpha
  let alpha := if layer.kind.isIndexed then (if shows alpha then 255 else 0) else UInt8.ofNat alpha
  Canvas.writePixel hasAlpha ⟨layer.colorOf palette sample, alpha⟩

/-! ### Further layers -/

/-- The index that remains of the index `below` under a sample. Indices hide what they cover; gray
levels mix over an opaque backdrop. -/
def mergedIndex (layer : Layer) (entries : Array Pixel) (sample : Sample) (below : UInt8) : UInt8 :=
  let texel := sample.texel
  if layer.kind = .indexed then Canvas.writeIndex entries texel.value below
  else if layer.kind.isIndexed then
    if shows (layer.alphaOf sample texel.alpha) then
      Canvas.writeIndex entries (raiseIndex texel.value) below
    else below
  else if texel.alpha = 0 then below
  else
    let blended := layer.props.mode.blend.blendGray texel.value below
    let alpha := UInt8.ofNat (layer.alphaOf sample texel.alpha)
    Canvas.writeIndex entries (mix blended below alpha 255) below

/-- What a gray sample leaves of the pixel `below`: it meets the pixel's luma, and the result is
gray. Modes that mix levels show no further than what is below. -/
def mergedGray (layer : Layer) (sample : Sample) (below : Pixel) : Pixel :=
  let mode := layer.props.mode
  let texel := sample.texel
  let level := below.color.luma
  let blended := mode.blend.blendGray texel.value level
  let clipped := if mode.blend.mixesGray then min texel.alpha below.alpha else texel.alpha
  let alpha := UInt8.ofNat (layer.alphaOf sample clipped)
  let total := overAlpha alpha below.alpha
  ⟨Rgb.gray (mix blended level alpha total), if mode.affectsAlpha then total else below.alpha⟩

/-- What a colour sample leaves of the pixel `below`. Modes that mix colours show no further than
what is below. -/
def mergedColor (layer : Layer) (palette : Palette) (sample : Sample) (below : Pixel) : Pixel :=
  let mode := layer.props.mode
  let texel := sample.texel
  let blended := mode.blend.blendColor (layer.colorOf palette sample) below.color
  let clipped := if mode.blend.mixesColor then min texel.alpha below.alpha else texel.alpha
  overPixel blended (UInt8.ofNat (layer.alphaOf sample clipped)) below mode.affectsAlpha

/-- The pixel that remains of the pixel `below` under a sample. Pixels without alpha change nothing,
and palette colours hide what they cover. -/
def mergedPixel (layer : Layer) (palette : Palette) (hasAlpha : Bool) (sample : Sample)
    (below : Pixel) : Pixel :=
  if layer.kind.isIndexed then
    if shows (layer.alphaOf sample sample.texel.alpha) then
      Canvas.writePixel hasAlpha (palette.lookup sample.texel.value).solid
    else below
  else if sample.texel.alpha = 0 then below
  else if layer.kind.isGray then Canvas.writePixel hasAlpha (layer.mergedGray sample below)
  else Canvas.writePixel hasAlpha (layer.mergedColor palette sample below)

end Layer

/-- Applies a rule to every cell that a pixel of the layer falls on. -/
def Raster.paint {α : Type} (layer : Layer) (rule : Sample → α → α) (cells : Raster α) : Raster α :=
  let width := cells.width
  let height := cells.height
  layer.tiles.toList.foldl
    (fun cells tile =>
      (layer.placements width height tile).foldl
        (fun cells p => cells.modify p.x p.y (rule p.sample)) cells)
    cells

namespace Canvas

/-- Puts the lowest visible layer onto a fresh canvas. Blend modes have nothing to blend with there,
except that a layer in dissolve mode is thinned out. -/
def paintBase (canvas : Canvas) (layer : Layer) (palette : Palette) : Canvas :=
  let layer := layer.dissolved
  match canvas with
  | indexed format entries cells =>
    indexed format entries (cells.paint layer (layer.baseIndex entries))
  | color hasAlpha cells => color hasAlpha (cells.paint layer (layer.basePixel palette hasAlpha))

/-- Composites a layer onto what lies below. A layer of opacity 0 changes nothing, nor does one
whose kind the canvas does not accept. -/
def mergeDown (canvas : Canvas) (layer : Layer) (palette : Palette) : Canvas :=
  if layer.props.opacity = 0 || !canvas.accepts layer.kind then canvas
  else
    let layer := layer.dissolved
    match canvas with
    | indexed format entries cells =>
      indexed format entries (cells.paint layer (layer.mergedIndex entries))
    | color hasAlpha cells =>
      color hasAlpha (cells.paint layer (layer.mergedPixel palette hasAlpha))

end Canvas

end XcfFlatten
