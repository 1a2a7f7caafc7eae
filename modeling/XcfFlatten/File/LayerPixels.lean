import XcfFlatten.File.Hierarchy
import XcfFlatten.File.LayerRecord

/-!
# The pixels of layers and masks

`LayerRecord.readLayer` completes a layer record with its pixels and its mask.
-/

namespace XcfFlatten

/-- Reads the mask at the reader's position, which must be as large as its layer. -/
def readMask (layerWidth layerHeight : Nat) (compression : Compression) (limits : Limits)
    (window : Window := Reader.bytesPadded) : Reader Mask := do
  let width ← Reader.word
  let height ← Reader.word
  let name ← Reader.string
  let props ← Property.readAll limits ChannelProperties.apply { name }
  if width ≠ layerWidth ∨ height ≠ layerHeight then
    throw (.maskSize width height layerWidth layerHeight)
  Reader.seek (← Reader.offset)
  let tiles ← readHierarchy width height .mask compression limits window
  pure { width, height, props, tiles }

namespace LayerRecord

/-- Reads the layer's mask, if it has one. -/
def readMask? (record : LayerRecord) (compression : Compression) (limits : Limits)
    (window : Window) : Reader (Option Mask) := do
  if record.maskOffset = 0 then pure none
  else
    Reader.seek record.maskOffset
    pure (some (← readMask record.width record.height compression limits window))

/-- Reads the layer's pixels and its mask, and settles whether the mask applies. -/
def readLayer (record : LayerRecord) (compression : Compression) (paletteSize : Nat)
    (limits : Limits) (window : Window := Reader.bytesPadded) : Reader Layer := do
  limits.checkSize s!"layer \"{record.props.name}\"" record.width record.height
  Reader.seek record.hierarchyOffset
  let tiles ←
    readHierarchy record.width record.height (.layer record.kind paletteSize) compression limits
      window
  let mask ← record.readMask? compression limits window
  pure
    { width := record.width
      height := record.height
      kind := record.kind
      props := { record.props with applyMask := record.props.applyMask.resolve mask.isSome }
      tiles
      mask }

end LayerRecord

end XcfFlatten
