import XcfFlatten.File.Property
import XcfFlatten.Layer

/-!
# Layer records

What a file stores about a layer apart from its pixels: its size, its kind, its properties, and
where the pixels and the mask are. `LayerProperties.apply` and `ChannelProperties.apply` say what
each property record means to a layer and to the channel of a mask.
-/

namespace XcfFlatten

/-- What one property record changes about a layer. -/
def LayerProperties.apply (property : Property) (props : LayerProperties) :
    Applied LayerProperties :=
  let payload := property.payload
  match property.tag with
  | .activeLayer => { state := { props with active := true } }
  | .opacity =>
    .set payload Reader.word (fun n => { props with opacity := UInt8.ofNat (min n 255) }) props
  | .floatOpacity =>
    if payload.size = 4 then
      .set payload Reader.float32 (fun bits => { props with floatOpacity := some bits }) props
    else { state := props }
  | .visible => .set payload Reader.flag (fun on => { props with visible := on }) props
  | .linked => .set payload Reader.flag (fun on => { props with linked := on }) props
  | .lockAlpha => .set payload Reader.flag (fun on => { props with lockAlpha := on }) props
  | .applyMask =>
    .set payload Reader.flag (fun on => { props with applyMask := if on then .on else .off }) props
  | .editMask => .set payload Reader.flag (fun on => { props with editMask := on }) props
  | .showMask => .set payload Reader.flag (fun on => { props with showMask := on }) props
  | .offsets =>
    -- The first offset holds even if the second is missing.
    match Reader.int32.parse payload with
    | .error error => { state := props, failure := some error }
    | .ok x =>
      .set payload (do let _ ← Reader.int32; Reader.int32)
        (fun y => { props with xOffset := x, yOffset := y })
        { props with xOffset := x }
  | .mode =>
    .set payload Reader.word
      (fun id => { props with mode := (LayerMode.ofId? id).getD LayerMode.normal }) props
  | .tattoo => .set payload Reader.word (fun n => { props with tattoo := n }) props
  | .compositeSpace => .set payload Reader.int32 (fun n => { props with compositeSpace := n }) props
  | .compositeMode => .set payload Reader.int32 (fun n => { props with compositeMode := n }) props
  | .blendSpace => .set payload Reader.int32 (fun n => { props with blendSpace := n }) props
  | _ => { state := props }

/-- What one property record changes about the channel of a mask. -/
def ChannelProperties.apply (property : Property) (props : ChannelProperties) :
    Applied ChannelProperties :=
  let payload := property.payload
  match property.tag with
  | .opacity =>
    .set payload Reader.word (fun n => { props with opacity := UInt8.ofNat (min n 255) }) props
  | .floatOpacity =>
    if payload.size = 4 then
      .set payload Reader.float32 (fun bits => { props with floatOpacity := some bits }) props
    else { state := props }
  | .visible => .set payload Reader.flag (fun on => { props with visible := on }) props
  | .showMasked => .set payload Reader.flag (fun on => { props with showMasked := on }) props
  | .color =>
    .set payload (do pure (⟨← Reader.byte, ← Reader.byte, ← Reader.byte⟩ : Rgb))
      (fun c => { props with color := c })
      props
  | .floatColor =>
    .set payload (do pure (← Reader.float32, ← Reader.float32, ← Reader.float32))
      (fun c => { props with floatColor := some c }) props
  | .tattoo => .set payload Reader.word (fun n => { props with tattoo := n }) props
  | _ => { state := props }

/-- What a file stores about a layer apart from its pixels. -/
structure LayerRecord where
  width : Nat
  height : Nat
  kind : LayerKind
  props : LayerProperties
  hierarchyOffset : Nat
  /-- Zero if the layer has no mask. -/
  maskOffset : Nat
  deriving DecidableEq

/-- Reads the record of a layer. -/
def LayerRecord.read (limits : Limits) : Reader LayerRecord := do
  let width ← Reader.word
  let height ← Reader.word
  let id ← Reader.word
  match LayerKind.ofId? id with
  | none => throw (.unknownLayerType id)
  | some kind =>
    let name ← Reader.string
    let props ← Property.readAll limits LayerProperties.apply { name }
    let hierarchyOffset ← Reader.offset
    let maskOffset ← Reader.offset
    pure { width, height, kind, props, hierarchyOffset, maskOffset }

end XcfFlatten
