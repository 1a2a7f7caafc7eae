import XcfFlatten.Color

/-!
# Laying colours over one another

The arithmetic of straight alpha: `overAlpha` is the alpha of a source laid over a pixel, `mix`
weighs one channel of the two by it, and `overPixel` does both for a whole pixel.
-/

namespace XcfFlatten

/-- The alpha of a source laid over the alpha `below`. -/
def overAlpha (source below : UInt8) : UInt8 :=
  UInt8.ofNat (below.toNat + mul255 (255 - below.toNat) source.toNat)

/-- One channel of a source of alpha `alpha` over the level `below`, where the result has alpha
`total`: the mean of the two weighted by `alpha` and the rest of `total`, rounded down. Without any
alpha it is the source. -/
def mix (source below alpha total : UInt8) : UInt8 :=
  if total = 0 then source
  else UInt8.ofNat
    ((alpha.toNat * source.toNat + (total.toNat - alpha.toNat) * below.toNat) / total.toNat)

/-- A source colour of alpha `alpha` laid over a pixel. Unless `affectsAlpha`, the pixel keeps its
alpha. -/
def overPixel (source : Rgb) (alpha : UInt8) (below : Pixel) (affectsAlpha : Bool) : Pixel :=
  let total := overAlpha alpha below.alpha
  { color := Rgb.zipWith (fun s d => mix s d alpha total) source below.color
    alpha := if affectsAlpha then total else below.alpha }

end XcfFlatten
