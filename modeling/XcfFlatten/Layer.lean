import XcfFlatten.Blend.Mode
import XcfFlatten.Dissolve
import XcfFlatten.Tile.Grid

/-!
# Layers

A layer is a grid of tiles with properties and perhaps a mask. What compositing needs to know of one
of its pixels is a `Sample`; `Layer.placements` lists the samples of a tile that fall on a canvas,
and where.

Real numbers stored in a file are kept as binary32 bit patterns.
-/

namespace XcfFlatten

/-- Whether a layer's mask is to be applied. -/
inductive MaskApply where
  | off
  | on
  /-- The layer does not say. -/
  | unspecified
  deriving DecidableEq, Inhabited, Repr

/-- Settles the flag once it is known whether there is a mask: without one it is off, and a layer
that does not say applies the mask it has. -/
def MaskApply.resolve (flag : MaskApply) (hasMask : Bool) : MaskApply :=
  if hasMask then (if flag = .unspecified then .on else flag) else .off

/-- The properties of a mask channel. -/
structure ChannelProperties where
  name : String := ""
  opacity : UInt8 := 255
  floatOpacity : Option UInt32 := none
  visible : Bool := true
  showMasked : Bool := false
  color : Rgb := Rgb.black
  floatColor : Option (UInt32 × UInt32 × UInt32) := none
  tattoo : Nat := 0
  deriving DecidableEq

/-- The properties of a layer. -/
structure LayerProperties where
  name : String := ""
  opacity : UInt8 := 255
  floatOpacity : Option UInt32 := none
  visible : Bool := true
  active : Bool := false
  linked : Bool := false
  lockAlpha : Bool := false
  applyMask : MaskApply := .unspecified
  editMask : Bool := false
  showMask : Bool := false
  xOffset : Int := 0
  yOffset : Int := 0
  mode : LayerMode := LayerMode.normal
  tattoo : Nat := 0
  blendSpace : Int := 0
  compositeSpace : Int := 0
  compositeMode : Int := 0
  deriving DecidableEq

/-- A mask: a byte for each pixel of its layer. -/
structure Mask where
  width : Nat
  height : Nat
  props : ChannelProperties
  tiles : TileGrid Tile

/-- A layer with its pixels. -/
structure Layer where
  width : Nat
  height : Nat
  kind : LayerKind
  props : LayerProperties
  tiles : TileGrid Tile
  mask : Option Mask

/-- A pixel of a layer, and the value of the mask there if the mask applies. -/
structure Sample where
  texel : Texel
  mask : Option UInt8

/-- A sample and the place on the canvas where it falls. -/
structure Placement where
  x : Nat
  y : Nat
  sample : Sample

/-- The alpha of a pixel with the layer's opacity and the mask multiplied in. -/
def effectiveAlpha (opacity : UInt8) (mask : Option UInt8) (alpha : UInt8) : Nat :=
  let a := mul255 alpha.toNat opacity.toNat
  match mask with
  | some m => mul255 a m.toNat
  | none => a

namespace Layer

/-- Whether compositing multiplies alpha by the mask. -/
def maskApplies (layer : Layer) : Bool := layer.props.applyMask = .on && layer.mask.isSome

/-- The mask's tile at a row and a column, if the mask applies. A mask that has no tile there masks
nothing. -/
def maskTile? (layer : Layer) (row column : Nat) : Option Tile :=
  if layer.maskApplies then layer.mask.bind fun mask => mask.tiles.get? row column else none

/-- The mask's value at the `i`-th pixel of a tile, if the mask applies. -/
def maskValue? (layer : Layer) (row column i : Nat) : Option UInt8 :=
  (layer.maskTile? row column).bind fun tile => (tile.texel? i).map Texel.value

/-- Where the first pixel of a tile falls on the canvas. -/
def tileOrigin (layer : Layer) (row column : Nat) : Int × Int :=
  (column * Tile.side + layer.props.xOffset, row * Tile.side + layer.props.yOffset)

/-- The pixels of a tile that fall on a canvas of the given size, row by row. -/
def placements (layer : Layer) (width height : Nat) (tile : Placed Tile) : List Placement :=
  let (left, top) := layer.tileOrigin tile.row tile.column
  let maskTile := layer.maskTile? tile.row tile.column
  (List.range tile.value.height).flatMap fun (l : Nat) =>
    let y : Int := top + l
    if 0 ≤ y ∧ y < height then
      (List.range tile.value.width).filterMap fun (k : Nat) =>
        let x : Int := left + k
        if 0 ≤ x ∧ x < width then
          let i := l * tile.value.width + k
          (tile.value.texel? i).map fun texel =>
            { x := x.toNat, y := y.toNat
              sample := ⟨texel, maskTile.bind fun mask => (mask.texel? i).map Texel.value⟩ }
        else none
    else []

/-- The layer as it is composited: thinned out if its mode is dissolve. Only layers that store alpha
beside a colour or a gray level are affected. -/
def dissolved (layer : Layer) : Layer :=
  if layer.props.mode.isDissolve && (layer.kind = .rgba || layer.kind = .grayAlpha) then
    { layer with
      tiles := layer.tiles.mapPlaced fun row column tile =>
        tile.dissolve (column * Tile.side) (row * Tile.side) }
  else layer

end Layer

end XcfFlatten
