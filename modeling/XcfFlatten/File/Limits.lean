import XcfFlatten.File.Error

/-!
# Limits

Caps on what a file may ask for, checked before anything is made of it.
-/

namespace XcfFlatten

/-- Caps on what a file may ask for. -/
structure Limits where
  /-- The largest width or height of an image or a layer. -/
  maxDimension : Nat := 32767
  /-- The most pixels of an image or a layer. -/
  maxPixels : Nat := 0x10000000
  /-- The largest payload of an ordinary property. -/
  maxPropertySize : Nat := 256000
  /-- The most records in a property list, its end included. -/
  maxProperties : Nat := 10000
  /-- The most entries in the layer table. -/
  maxLayers : Nat := 65536
  /-- The most entries in the level list of a hierarchy. -/
  maxLevels : Nat := 32
  deriving DecidableEq

/-- Checks the declared size of a raster against the caps on dimensions and pixels. -/
def Limits.checkSize (limits : Limits) (what : String) (width height : Nat) :
    Except ReadError Unit :=
  if limits.maxDimension < width ∨ limits.maxDimension < height ∨
      limits.maxPixels < width * height then
    throw (.sizeTooLarge what width height)
  else pure ()

end XcfFlatten
