import XcfFlatten.File.Header
import XcfFlatten.File.LayerRecord

/-!
# Summaries

What a file says about itself and its layers, hidden ones included, without a look at any pixel.
-/

namespace XcfFlatten

/-- A layer without its pixels. -/
structure LayerSummary where
  name : String
  width : Nat
  height : Nat
  kind : LayerKind
  mode : LayerMode
  opacity : UInt8
  visible : Bool
  xOffset : Int
  yOffset : Int
  hasMask : Bool
  deriving DecidableEq

/-- A document without its pixels. -/
structure Summary where
  version : Nat
  width : Nat
  height : Nat
  baseType : BaseType
  precision : Option Nat
  compression : Compression
  paletteSize : Nat
  /-- Dots per inch, horizontally and vertically, as binary32 bit patterns. -/
  resolution : Option (UInt32 × UInt32)
  comment : Option String
  /-- The layers from the top down. -/
  layers : List LayerSummary
  deriving DecidableEq

/-- What a layer's record says about it. -/
def LayerRecord.summary (record : LayerRecord) : LayerSummary where
  name := record.props.name
  width := record.width
  height := record.height
  kind := record.kind
  mode := record.props.mode
  opacity := record.props.opacity
  visible := record.props.visible
  xOffset := record.props.xOffset
  yOffset := record.props.yOffset
  hasMask := record.maskOffset != 0

namespace Summary

/-- Reads the layer at an offset, in front of those already read. -/
def readLayer (limits : Limits) (done : List LayerSummary) (offset : Nat) :
    Reader (List LayerSummary) := do
  Reader.seek offset
  pure ((← LayerRecord.read limits).summary :: done)

/-- Reads the summary of a file. -/
def read (limits : Limits) : Reader Summary := do
  let header ← Header.read
  let props ← ImageProperties.read limits
  let offsets ← readLayerTable limits limits.maxLayers []
  let layers ← offsets.reverse.foldlM (readLayer limits) []
  pure
    { version := header.version
      width := header.width
      height := header.height
      baseType := header.baseType
      precision := header.precision
      compression := props.compression
      paletteSize := props.palette.size
      resolution := props.resolution
      comment := props.comment
      layers := layers.reverse }

/-- The summary of the document in a sequence of bytes. -/
def decode (data : Bytes) : Except ReadError Summary := (read {}).parse data

end Summary

end XcfFlatten
