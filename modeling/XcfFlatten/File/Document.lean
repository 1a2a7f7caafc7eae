import XcfFlatten.Canvas.Flatten
import XcfFlatten.File.Header
import XcfFlatten.File.LayerPixels

/-!
# Documents

`Document.decode` reads a file and flattens its visible layers. Layers are composited from the
bottom up as they are read; hidden ones are passed over without a look at their pixels.
-/

namespace XcfFlatten

/-- A decoded and flattened file. -/
structure Document where
  version : Nat
  canvas : Canvas
  comment : Option String
  metadata : Option String
  iccProfile : Option Bytes
  /-- The resolution, horizontally and vertically. -/
  dotsPerMeter : Option (Int × Int)

namespace Document

/-- How many inches make a meter. -/
def inchesPerMeter : Float32 := Float32.ofBits 0x421d7af6

/-- Dots per inch as dots per meter, cut down to a whole number of 32 bits. -/
def perMeter (dpi : UInt32) : Except ReadError Int :=
  let dots := Float32.ofBits dpi * inchesPerMeter
  if dots > 2147483648 then throw (.resolution dpi) else pure dots.toInt32.toInt

/-- The resolution of an image in dots per meter. There is none unless both directions are
positive. -/
def dotsPerMeter? (resolution : Option (UInt32 × UInt32)) : Except ReadError (Option (Int × Int)) :=
  match resolution with
  | none => pure none
  | some (x, y) =>
    if Float32.ofBits x > 0 ∧ Float32.ofBits y > 0 then do pure (some (← perMeter x, ← perMeter y))
    else pure none

/-- Adds the layer to what lies below it, or starts a canvas with it. -/
def addLayer (width height : Nat) (palette : Palette) (below : Option Canvas) (layer : Layer) :
    Except ReadError Canvas :=
  match below with
  | none =>
    match Canvas.forBase? width height layer.kind layer.props.opacity palette with
    | some canvas => pure (canvas.paintBase layer palette)
    | none => throw (.paletteTooLarge palette.size)
  | some canvas =>
    if canvas.accepts layer.kind then pure (canvas.mergeDown layer palette)
    else throw (.cannotMerge layer.kind layer.props.name canvas.format)

/-- Reads the layer at an offset, and adds it to what lies below it unless it is hidden. -/
def readOnto (header : Header) (props : ImageProperties) (limits : Limits) (window : Window)
    (below : Option Canvas) (offset : Nat) : Reader (Option Canvas) := do
  Reader.seek offset
  let record ← LayerRecord.read limits
  if record.props.visible then
    let layer ← record.readLayer props.compression props.palette.size limits window
    some <$> addLayer header.width header.height props.palette below layer
  else pure below

/-- Reads a file and flattens its visible layers. -/
def read (limits : Limits) (window : Window) : Reader Document := do
  let header ← Header.read
  limits.checkSize "image" header.width header.height
  let props ← ImageProperties.read limits
  let offsets ← readLayerTable limits limits.maxLayers []
  match ← offsets.foldlM (readOnto header props limits window) none with
  | none => throw .noVisibleLayers
  | some canvas =>
    pure
      { version := header.version
        canvas
        comment := props.comment
        metadata := props.metadata
        iccProfile := props.iccProfile
        dotsPerMeter := ← dotsPerMeter? props.resolution }

/-- The document in a sequence of bytes. The bytes of a tile that are missing at its end are taken
for zeros. -/
def decode (data : Bytes) (limits : Limits := {}) (window : Window := Reader.bytesPadded) :
    Except ReadError Document :=
  (read limits window).parse data

end Document

end XcfFlatten
