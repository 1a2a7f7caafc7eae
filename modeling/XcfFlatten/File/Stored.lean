import XcfFlatten.File.Document
import XcfFlatten.File.Layout

/-!
# Documents to be stored

A document before it is written: rasters of interleaved pixels with the properties that go with
them. A `StoredDocument` has two readings that do not know of each other: `StoredDocument.bytes` is
the file it is written as, and `StoredDocument.visibleLayers` are the layers that are to be seen,
made from the rasters without a file in between.
-/

namespace XcfFlatten

/-- Whether a raster of the given size is within the caps on dimensions and pixels. -/
def Limits.Admits (limits : Limits) (width height : Nat) : Prop :=
  width ≤ limits.maxDimension ∧ height ≤ limits.maxDimension ∧ width * height ≤ limits.maxPixels

instance (limits : Limits) (width height : Nat) : Decidable (limits.Admits width height) :=
  inferInstanceAs (Decidable (_ ∧ _))

/-! ### Properties -/

/-- A property of a layer or a mask. -/
inductive StoredProperty where
  | opacity (value : UInt32)
  | mode (id : UInt32)
  | visible (on : Bool)
  | applyMask (on : Bool)
  | offsets (x y : Int32)
  deriving DecidableEq

namespace StoredProperty

/-- The tag of the property's record. -/
def tag : StoredProperty → PropertyTag
  | opacity _ => .opacity
  | mode _ => .mode
  | visible _ => .visible
  | applyMask _ => .applyMask
  | offsets _ _ => .offsets

/-- The payload of the property's record. -/
def payload : StoredProperty → List UInt8
  | opacity value => Layout.word value.toNat
  | mode id => Layout.word id.toNat
  | visible on => Layout.word on.toNat
  | applyMask on => Layout.word on.toNat
  | offsets x y => Layout.word x.toBitVec.toNat ++ Layout.word y.toBitVec.toNat

/-- What the property says about a layer. -/
def setLayer (props : LayerProperties) : StoredProperty → LayerProperties
  | opacity value => { props with opacity := UInt8.ofNat (min value.toNat 255) }
  | mode id => { props with mode := (LayerMode.ofId? id.toNat).getD LayerMode.normal }
  | visible on => { props with visible := on }
  | applyMask on => { props with applyMask := if on then .on else .off }
  | offsets x y => { props with xOffset := x.toInt, yOffset := y.toInt }

/-- What the property says about a mask. -/
def setChannel (props : ChannelProperties) : StoredProperty → ChannelProperties
  | opacity value => { props with opacity := UInt8.ofNat (min value.toNat 255) }
  | visible on => { props with visible := on }
  | mode _ | applyMask _ | offsets _ _ => props

/-- A property list. -/
def listBytes (props : List StoredProperty) : List UInt8 :=
  (props.flatMap fun p => Layout.record p.tag p.payload) ++ Layout.terminator

end StoredProperty

/-- The text of a name, which ends before its first NUL. -/
def nameText (name : List UInt8) : String := Utf8.decodeLossy (name.takeWhile (· != 0))

/-! ### Masks -/

/-- A mask for a layer of the given size: a byte for each pixel. -/
structure StoredMask (width height : Nat) where
  values : Bytes
  props : List StoredProperty
  values_size : values.size = width * height
  props_length : props.length < ({} : Limits).maxProperties

namespace StoredMask

variable {width height : Nat}

/-- The name under which masks are stored. -/
def name : List UInt8 := Header.ascii "mask"

/-- The mask's record without the place of its pixels. -/
def head (mask : StoredMask width height) : List UInt8 :=
  Layout.word width ++ Layout.word height ++ Layout.string name ++
    StoredProperty.listBytes mask.props

/-- The mask's record at a given place, and its pixels behind it. -/
def bytes (mask : StoredMask width height) (compression : Compression) (version place : Nat) :
    List UInt8 :=
  let pixels := place + mask.head.length + Layout.offsetWidth version
  mask.head ++ Layout.offset version pixels ++
    Layout.hierarchy version pixels width height 1
      (Layout.tiles compression width height 1 mask.values)

/-- The mask as it is composited, cut into tiles. -/
def toMask (mask : StoredMask width height) : Mask where
  width
  height
  props := mask.props.foldl StoredProperty.setChannel { name := nameText name }
  tiles := TileGrid.cut width height 1 mask.values fun w h data => Tile.assembleMask w h data 1

end StoredMask

/-! ### Layers -/

/-- A layer: a raster of interleaved pixels, and perhaps a mask. -/
structure StoredLayer where
  name : List UInt8
  width : Nat
  height : Nat
  kind : LayerKind
  pixels : Bytes
  props : List StoredProperty
  mask : Option (StoredMask width height)
  pixels_size : pixels.size = width * height * kind.channels
  props_length : props.length < ({} : Limits).maxProperties
  admitted : ({} : Limits).Admits width height

namespace StoredLayer

/-- The layer's properties as they are stored. -/
def properties (layer : StoredLayer) : LayerProperties :=
  layer.props.foldl StoredProperty.setLayer { name := nameText layer.name }

/-- Whether the layer is to be seen. -/
def isVisible (layer : StoredLayer) : Bool := layer.properties.visible

/-- The layer's record without the places of its pixels and its mask. -/
def head (layer : StoredLayer) : List UInt8 :=
  Layout.word layer.width ++ Layout.word layer.height ++
    Layout.word (LayerKind.all.idxOf layer.kind) ++ Layout.string layer.name ++
    StoredProperty.listBytes layer.props

/-- The layer's record at a given place, and behind it its pixels and its mask. -/
def bytes (layer : StoredLayer) (compression : Compression) (version place : Nat) : List UInt8 :=
  let first := place + layer.head.length + 2 * Layout.offsetWidth version
  let pixels := Layout.hierarchy version first layer.width layer.height layer.kind.channels
    (Layout.tiles compression layer.width layer.height layer.kind.channels layer.pixels)
  let second := first + pixels.length
  match layer.mask with
  | none => layer.head ++ (Layout.offset version first ++ Layout.offset version 0) ++ pixels
  | some mask =>
    layer.head ++ (Layout.offset version first ++ Layout.offset version second) ++ pixels ++
      mask.bytes compression version second

/-- The layer as it is composited in a document with a palette of the given size: cut into tiles, and
with the flag of its mask resolved. -/
def toLayer (layer : StoredLayer) (paletteSize : Nat) : Layer where
  width := layer.width
  height := layer.height
  kind := layer.kind
  props := { layer.properties with
    applyMask := layer.properties.applyMask.resolve layer.mask.isSome }
  tiles := TileGrid.cut layer.width layer.height layer.kind.channels layer.pixels fun w h data =>
    Tile.assemble layer.kind w h data layer.kind.channels paletteSize
  mask := layer.mask.map StoredMask.toMask

/-- Those of the layers that are to be seen, as they are composited. -/
def seen (paletteSize : Nat) (layers : List StoredLayer) : List Layer :=
  (layers.filter isVisible).map fun layer => layer.toLayer paletteSize

end StoredLayer

/-! ### Documents -/

/-- The colour model of a layer kind. -/
def LayerKind.baseType : LayerKind → BaseType
  | rgb | rgba => .rgb
  | gray | grayAlpha => .gray
  | indexed | indexedAlpha => .indexed

/-- A colour model, with the palette of an indexed one. -/
inductive ColorModel where
  | rgb
  | gray
  | indexed (palette : Palette)

namespace ColorModel

/-- The model without its palette. -/
def baseType : ColorModel → BaseType
  | rgb => .rgb
  | gray => .gray
  | indexed _ => .indexed

/-- The palette, which is empty unless the model is indexed. -/
def palette : ColorModel → Palette
  | rgb | gray => #[]
  | indexed palette => palette

/-- The record of the palette, if there is one. -/
def bytes : ColorModel → List UInt8
  | rgb | gray => []
  | indexed palette => Layout.colormap palette

end ColorModel

/-- A document whose layers, the topmost first, are of one colour model. -/
structure StoredDocument where
  version : Nat
  width : Nat
  height : Nat
  model : ColorModel
  layers : List StoredLayer
  version_le : version ≤ Header.newestVersion
  admitted : ({} : Limits).Admits width height
  palette_size : model.palette.size ≤ 256
  layers_length : layers.length ≤ ({} : Limits).maxLayers
  baseType_eq : ∀ layer ∈ layers, layer.kind.baseType = model.baseType

namespace StoredDocument

/-- The tag that begins a file of the given version. -/
def tag (version : Nat) : List UInt8 :=
  Header.magic ++ Header.ascii " " ++
    (if version = 0 then Header.ascii "file"
    else Header.ascii "v" ++
      [version / 100 % 10, version / 10 % 10, version % 10].map fun d => UInt8.ofNat (48 + d)) ++
    [0]

/-- The precision of files that store 8 bit channels. -/
def precision : Nat := 150

/-- Layers one behind the other, the first at a given place, each with its own place. -/
def blocks (compression : Compression) (version : Nat) :
    (place : Nat) → List StoredLayer → List (Nat × List UInt8)
  | _, [] => []
  | place, layer :: layers =>
    let bytes := layer.bytes compression version place
    (place, bytes) :: blocks compression version (place + bytes.length) layers

variable (document : StoredDocument)

/-- The header and the properties of the image. -/
def headBytes (compression : Compression) : List UInt8 :=
  tag document.version ++
    (Layout.word document.width ++ Layout.word document.height ++
      Layout.word (BaseType.all.idxOf document.model.baseType)) ++
    (if 4 ≤ document.version then Layout.word precision else []) ++
    (Layout.record .compression [UInt8.ofNat (Compression.all.idxOf compression)] ++
      document.model.bytes ++ Layout.terminator)

/-- The file: its head, the table of its layers and the layers. -/
def bytes (compression : Compression) : Bytes :=
  let head := document.headBytes compression
  let first := head.length + (document.layers.length + 1) * Layout.offsetWidth document.version
  let blocks := blocks compression document.version first document.layers
  (head ++ (blocks.flatMap (fun block => Layout.offset document.version block.1) ++
    Layout.offset document.version 0) ++ blocks.flatMap Prod.snd).toArray

/-- The layers that are to be seen as they are composited, the lowest first. -/
def visibleLayers : List Layer :=
  StoredLayer.seen document.model.palette.size document.layers.reverse

end StoredDocument

end XcfFlatten
