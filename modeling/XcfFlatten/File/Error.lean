import XcfFlatten.Canvas
import XcfFlatten.Decimal.Binary32
import XcfFlatten.File.Compression
import XcfFlatten.File.PropertyTag

/-!
# Read errors

Why a file cannot be read. Each `ReadError` is a cause with what it takes to describe it, and falls
into one `ErrorClass`; `ReadError.message` is its wording.
-/

namespace XcfFlatten

/-- What is wrong with run length encoded data. -/
inductive RunError where
  /-- The bytes do not fit where they are to be written. -/
  | noRoom
  /-- The data ends inside a run. -/
  | ended
  /-- A run is longer than what is left to fill. -/
  | overflow
  /-- The data ends inside the bytes of a literal run. -/
  | literalCut
  deriving DecidableEq, Repr

/-- The wording of a run length error. -/
def RunError.message : RunError → String
  | noRoom => "destination too small"
  | ended => "unexpected end of data"
  | overflow => "run overflows the tile"
  | literalCut => "literal run past end of data"

/-- The kinds of read errors. -/
inductive ErrorClass where
  /-- The input cannot be accessed. -/
  | access
  /-- The input ends in the middle of a structure. -/
  | truncated
  /-- Not an XCF file, or a structure without meaning. -/
  | format
  /-- Values out of bounds or at odds with one another. -/
  | corrupt
  | unsupported
  | noVisibleLayers
  deriving DecidableEq, Repr

/-- Why a file cannot be read. -/
inductive ReadError where
  /-- A move to a position that does not fit 64 bits. -/
  | badPosition
  | truncated
  | noVisibleLayers
  -- The format.
  | notXcf
  | badVersionTag (tag : String)
  | unknownImageType (id : Nat)
  | unknownLayerType (id : Nat)
  | hierarchyDepth (channels : Nat)
  | cannotMerge (kind : LayerKind) (name : String) (format : CanvasFormat)
  -- Corruption.
  | negativeOffset (offset : Int)
  | sizeTooLarge (what : String) (width height : Nat)
  | colormapTooLarge (colors : Nat)
  | propertyTooLarge (tag : PropertyTag) (size : Nat)
  | tooManyProperties (limit : Nat)
  | tooManyLayers (limit : Nat)
  | tooManyLevels (limit : Nat)
  | missingTiles (expected found : Nat)
  | tileLength (offset next : Nat)
  | runs (error : RunError)
  | maskSize (width height layerWidth layerHeight : Nat)
  | colormapEntries (colors : Nat)
  | paletteTooLarge (colors : Nat)
  | resolution (dpi : UInt32)
  -- What is not supported.
  | fileVersion (version : Nat)
  | compressionMethod (id : Nat)
  | tileCompression (method : Compression)
  deriving DecidableEq, Repr

namespace ReadError

/-- The kind of an error. -/
def errorClass : ReadError → ErrorClass
  | badPosition => .access
  | truncated => .truncated
  | noVisibleLayers => .noVisibleLayers
  | notXcf | badVersionTag _ | unknownImageType _ | unknownLayerType _ | hierarchyDepth _
  | cannotMerge _ _ _ => .format
  | negativeOffset _ | sizeTooLarge _ _ _ | colormapTooLarge _ | propertyTooLarge _ _
  | tooManyProperties _ | tooManyLayers _ | tooManyLevels _ | missingTiles _ _ | tileLength _ _
  | runs _ | maskSize _ _ _ _
  | colormapEntries _ | paletteTooLarge _ | resolution _ => .corrupt
  | fileVersion _ | compressionMethod _ | tileCompression _ => .unsupported

/-- What an error says beyond its kind. -/
def detail : ReadError → String
  | badPosition => "invalid seek to a negative or overflowing position"
  | truncated => "unexpected end of file"
  | noVisibleLayers => "no visible layers"
  | notXcf => "not an XCF file"
  | badVersionTag tag => s!"bad version tag \"{tag}\""
  | unknownImageType id => s!"unknown image type {id}"
  | unknownLayerType id => s!"unknown layer type {id}"
  | hierarchyDepth channels => s!"unsupported hierarchy depth of {channels} bytes per pixel"
  | cannotMerge kind name format =>
    s!"cannot merge {kind.name} layer \"{name}\" into a {format.name} image"
  | negativeOffset offset => s!"negative offset {offset}"
  | sizeTooLarge what width height => s!"{what} is too large ({width}x{height})"
  | colormapTooLarge colors => s!"colormap of {colors} colors is too large"
  | propertyTooLarge tag size => s!"property {tag.name} is too large ({size} bytes)"
  | tooManyProperties limit => s!"more than {limit} properties in one list"
  | tooManyLayers limit => s!"more than {limit} layers"
  | tooManyLevels limit => s!"more than {limit} hierarchy levels"
  | missingTiles expected found => s!"expected {expected} tiles, got {found}"
  | tileLength offset next => s!"invalid tile data length ({offset} to {next})"
  | runs error => s!"bad RLE data: {error.message}"
  | maskSize width height layerWidth layerHeight =>
    s!"mask size {width}x{height} does not match layer size {layerWidth}x{layerHeight}"
  | colormapEntries colors => s!"{colors} colormap entries"
  | paletteTooLarge colors => s!"{colors} colors do not fit in an indexed image"
  | resolution dpi => s!"resolution of {Binary32.toDecimal dpi} dpi"
  | fileVersion version => s!"file format version {version}"
  | compressionMethod id => s!"compression method {id}"
  | tileCompression method => s!"{method.name} tile compression"

/-- The wording of an error. -/
def message (error : ReadError) : String :=
  match error.errorClass with
  | .access | .truncated | .noVisibleLayers => error.detail
  | .format => s!"invalid XCF file: {error.detail}"
  | .corrupt => s!"corrupt XCF file: {error.detail}"
  | .unsupported => s!"unsupported XCF feature: {error.detail}"

end ReadError

end XcfFlatten
